import Scaler.ObjectStorage.AsyncConnector
import Scaler.ObjectStorage.SyncPairing

/-! Fetches through the asynchronous connector. One future and one request serve all the
callers that ask for an object at a time, so they are independent only as long as they ask
for the same length, none of them is cancelled and the connection lives. -/

namespace Scaler.ObjectStorage

open Collections

variable {wire : Wire}

def ObjectRequestHeader.gets (h : ObjectRequestHeader) (id : ObjectID) : Bool :=
  h.requestType = .getObject && h.objectID = id

theorem ObjectRequestHeader.gets_iff {h : ObjectRequestHeader} {id : ObjectID} :
    h.gets id = true ↔ h.requestType = .getObject ∧ h.objectID = id := by
  simp [ObjectRequestHeader.gets]

theorem ObjectRequestHeader.gets_of_ne {h : ObjectRequestHeader} (hne : h.requestType ≠ .getObject)
    (id : ObjectID) : h.gets id = false := by
  simp [ObjectRequestHeader.gets, hne]

/-- The payload is what the server held for the id, cut to the length. -/
def Received (wire : Wire) (answers : List Answer) (id : ObjectID) (maxPayloadLength : UInt64)
    (payload : ObjectPayload) : Prop :=
  ∃ a ∈ answers, a.Given wire ∧ a.request.header.requestType = .getObject ∧
    a.request.header.objectID = id ∧
    ∃ full, a.held.get? id = some full ∧ payload = full.take maxPayloadLength.toNat

theorem Received.mono {answers answers' : List Answer} {id : ObjectID} {length : UInt64}
    {payload : ObjectPayload} (hr : Received wire answers id length payload)
    (hsub : ∀ a ∈ answers, a ∈ answers') : Received wire answers' id length payload := by
  obtain ⟨a, ha, hrest⟩ := hr
  exact ⟨a, hsub a ha, hrest⟩

/-- The futures and the get requests under way: one request for each future that is waited
for, and no other. -/
structure Registered (pending : Dict ObjectID CallerId) (futures : Dict CallerId GetFuture)
    (under : List ObjectRequestHeader) : Prop where
  unique : ∀ id, under.countP (·.gets id) ≤ 1
  known : ∀ h ∈ under, ∀ id, h.gets id = true → ∃ f, pending.get? id = some f ∧
    futures.get? f = some ⟨id, h.payloadLength, .pending⟩
  live : ∀ id f, pending.get? id = some f → ∃ h ∈ under, h.gets id = true

namespace Registered

variable {pending : Dict ObjectID CallerId} {futures : Dict CallerId GetFuture}
  {under under' : List ObjectRequestHeader} {h : ObjectRequestHeader}

theorem perm (hr : Registered pending futures under) (hp : under.Perm under') :
    Registered pending futures under' where
  unique id := by
    rw [← hp.countP_eq]
    exact hr.unique id
  known h hh := hr.known h (hp.mem_iff.mpr hh)
  live id f hf := by
    obtain ⟨h, hh, hg⟩ := hr.live id f hf
    exact ⟨h, hp.mem_iff.mp hh, hg⟩

theorem skip (hr : Registered pending futures under) (hne : h.requestType ≠ .getObject) :
    Registered pending futures (h :: under) where
  unique id := by
    rw [List.countP_cons_of_neg (by simp [ObjectRequestHeader.gets_of_ne hne])]
    exact hr.unique id
  known x hx id hg := by
    rcases List.mem_cons.mp hx with rfl | hx
    · rw [ObjectRequestHeader.gets_of_ne hne] at hg
      cases hg
    · exact hr.known x hx id hg
  live id f hf := by
    obtain ⟨x, hx, hg⟩ := hr.live id f hf
    exact ⟨x, List.mem_cons_of_mem _ hx, hg⟩

theorem sublist (hr : Registered pending futures under) (hs : under'.Sublist under)
    (hkept : ∀ x ∈ under, x.requestType = .getObject → x ∈ under') : Registered pending futures under' where
  unique id := Nat.le_trans (hs.countP_le) (hr.unique id)
  known x hx := hr.known x (hs.subset hx)
  live id f hf := by
    obtain ⟨x, hx, hg⟩ := hr.live id f hf
    exact ⟨x, hkept x hx (ObjectRequestHeader.gets_iff.mp hg).1, hg⟩

theorem register (hr : Registered pending futures under) {f : CallerId} (hf : futures.get? f = none)
    (hnone : pending.get? h.objectID = none) (hget : h.requestType = .getObject) :
    Registered (pending.set h.objectID f) (futures.set f ⟨h.objectID, h.payloadLength, .pending⟩)
      (h :: under) := by
  have hnew : ∀ x ∈ under, x.gets h.objectID = false := by
    intro x hx
    by_contra hg
    obtain ⟨f', hp, -⟩ := hr.known x hx _ (by simpa using hg)
    rw [hnone] at hp
    cases hp
  refine ⟨?_, ?_, ?_⟩
  · intro id
    rw [List.countP_cons]
    by_cases hid : h.objectID = id
    · subst hid
      have hzero : under.countP (·.gets h.objectID) = 0 := by
        rw [List.countP_eq_zero]
        intro x hx
        simp [hnew x hx]
      rw [hzero]
      split <;> omega
    · rw [if_neg (by simp [ObjectRequestHeader.gets, hid])]
      exact hr.unique id
  · intro x hx id hg
    rcases List.mem_cons.mp hx with rfl | hx
    · obtain ⟨-, rfl⟩ := ObjectRequestHeader.gets_iff.mp hg
      exact ⟨f, Dict.get?_set_self _ _ _, Dict.get?_set_self _ _ _⟩
    · obtain ⟨f', hp, hfuture⟩ := hr.known x hx id hg
      have hne : id ≠ h.objectID := by
        rintro rfl
        rw [hnone] at hp
        cases hp
      have hff : f' ≠ f := by
        rintro rfl
        rw [hf] at hfuture
        cases hfuture
      exact ⟨f', (Dict.get?_set_ne _ hne _).trans hp, (Dict.get?_set_ne _ hff _).trans hfuture⟩
  · intro id f' hp
    by_cases hid : id = h.objectID
    · exact ⟨h, List.mem_cons_self, ObjectRequestHeader.gets_iff.mpr ⟨hget, hid.symm⟩⟩
    · rw [Dict.get?_set_ne _ hid] at hp
      obtain ⟨x, hx, hg⟩ := hr.live id f' hp
      exact ⟨x, List.mem_cons_of_mem _ hx, hg⟩

theorem take (hr : Registered pending futures (h :: under)) {id : ObjectID} (hg : h.gets id = true) :
    ∃ f, pending.get? id = some f ∧ futures.get? f = some ⟨id, h.payloadLength, .pending⟩ ∧
      ∀ r, Registered (pending.erase id) (futures.set f r) under := by
  obtain ⟨f, hp, hf⟩ := hr.known h List.mem_cons_self id hg
  refine ⟨f, hp, hf, fun r => ⟨?_, ?_, ?_⟩⟩
  · intro j
    exact Nat.le_trans ((List.sublist_cons_self h under).countP_le) (hr.unique j)
  · intro x hx j hj
    have hne : j ≠ id := by
      rintro rfl
      have hone := hr.unique j
      rw [List.countP_cons, if_pos hg] at hone
      have hpos : 0 < under.countP (·.gets j) := List.countP_pos_iff.mpr ⟨x, hx, hj⟩
      omega
    obtain ⟨f', hp', hf'⟩ := hr.known x (List.mem_cons_of_mem _ hx) j hj
    have hff : f' ≠ f := by
      rintro rfl
      rw [hf] at hf'
      exact hne (congrArg GetFuture.objectID (Option.some.inj hf')).symm
    exact ⟨f', (Dict.get?_erase_ne _ hne).trans hp', (Dict.get?_set_ne _ hff _).trans hf'⟩
  · intro j f' hp'
    rw [Dict.get?_erase] at hp'
    split at hp'
    · cases hp'
    · next hne =>
      obtain ⟨x, hx, hj⟩ := hr.live j f' hp'
      rcases List.mem_cons.mp hx with rfl | hx
      · exact absurd ((ObjectRequestHeader.gets_iff.mp hj).2.symm.trans
          (ObjectRequestHeader.gets_iff.mp hg).2) hne
      · exact ⟨x, hx, hj⟩

end Registered

/-- What the server has of a request is not mistaken for the beginning of the next one. -/
def Link.Stale (l : Link) : Prop :=
  ∀ full ∈ l.half, full.requestHeader.payloadLength.toNat ≠ capnpHeaderSize

/-- The request at the lock has not sent anything yet. -/
structure Transmission.Fresh (t : Transmission) : Prop where
  known : ∀ value, t.header.requestType ≠ .unknown value
  payload : t.header.requestType.hasPayload = t.payload.isSome
  length : ∀ payload ∈ t.payload, t.header.payloadLength.toNat = payload.length

/-- What the server has of the request that holds the lock. -/
def Transmission.Sent (t : Transmission) (l : Link) : Prop :=
  match t.payload with
  | none => l.Stale
  | some payload => ∃ full, l.half = some full ∧ full.requestHeader = t.header ∧
    t.header.payloadLength.toNat = payload.length ∧ t.header.requestType.hasPayload = true

section

variable {identity : Identity} {l : Link} {t : Transmission}

variable (wire identity) in
theorem receiveOne_header (hl : l.Stale) (hknown : ∀ value, t.header.requestType ≠ .unknown value) :
    receiveOne wire.readRequest l.half ⟨identity, wire.request t.header, true⟩ =
      let full : FullRequest := ⟨⟨identity, wire.request t.header, true⟩, t.header, none⟩
      if t.header.requestType.hasPayload then (some full, none) else (none, some full) := by
  have hfilter : l.half.filter (fun full =>
      full.requestHeader.payloadLength.toNat = (wire.request t.header).length) = none := by
    rw [Option.filter_eq_none_iff]
    intro full hfull
    have hne := hl full hfull
    rw [wire.length_request]
    simpa using hne
  unfold receiveOne
  simp only [hfilter, wire.readRequest_request _ hknown]

variable (wire identity) in
/-- A header comes when nothing of an earlier request disturbs it. -/
theorem Transmission.Fresh.deliver (ht : t.Fresh) (hl : l.Stale) :
    t.Sent (l.deliver wire identity (wire.request t.header) true) ∧
      ((l.deliver wire identity (wire.request t.header) true).outstanding.map (·.header) =
        if t.header.requestType.hasPayload then l.outstanding.map (·.header)
        else l.outstanding.map (·.header) ++ [t.header]) := by
  have hr := receiveOne_header wire identity hl ht.known
  cases hp : t.payload with
  | none =>
    have hno : t.header.requestType.hasPayload = false := by
      rw [ht.payload, hp]
      rfl
    simp only [hno] at hr
    simp [Transmission.Sent, hp, Link.deliver, hr, hno, Link.Stale, FullRequest.request]
  | some payload =>
    have hyes : t.header.requestType.hasPayload = true := by
      rw [ht.payload, hp]
      rfl
    simp only [hyes] at hr
    simp [Transmission.Sent, hp, Link.deliver, hr, hyes, ht.length payload hp]

variable (wire identity) in
/-- The payload comes right after its header. -/
theorem Transmission.Sent.deliver {payload : ObjectPayload} (ht : t.Sent l) (hp : t.payload = some payload) :
    (l.deliver wire identity payload false).Stale ∧
      (l.deliver wire identity payload false).outstanding.map (·.header) =
        l.outstanding.map (·.header) ++ [t.header] := by
  unfold Transmission.Sent at ht
  rw [hp] at ht
  obtain ⟨full, hhalf, hheader, hlength, -⟩ := ht
  have hr : receiveOne wire.readRequest l.half ⟨identity, payload, false⟩ =
      (none, some { full with payload := some ⟨identity, payload, false⟩ }) := by
    simp [receiveOne, hhalf, hheader, hlength, Option.filter]
  simp [Link.deliver, hr, Link.Stale, FullRequest.request, hheader]

end

namespace AsyncConnector

variable {s : AsyncConnector} {extra : List ObjectRequestHeader} {inflight : List Answer} {t : Transmission}

/-- The requests at the lock, those the server has, and those whose response is not read. -/
def underWay (s : AsyncConnector) (inflight : List Answer) : List ObjectRequestHeader :=
  s.waiters.map (·.header) ++ (s.link.outstanding.map (·.header) ++ inflight.map (·.request.header))

/-- The messages that `routine` is going to read are the responses in flight. -/
def Arriving (wire : Wire) (s : AsyncConnector) (inflight : List Answer) : Prop :=
  match s.routine with
  | .readingPayload response => ∃ a rest, inflight = a :: rest ∧ response = a.reply.header ∧
    s.link.frames = a.reply.payload :: rest.flatMap (·.reply.frames wire)
  | _ => s.link.frames = inflight.flatMap (·.reply.frames wire)

/-- While the connection lives; `extra` are requests that a caller has in hand. -/
structure Live (wire : Wire) (s : AsyncConnector) (extra : List ObjectRequestHeader)
    (inflight : List Answer) : Prop where
  registered : Registered s.pendingGetRequests s.futures (extra ++ s.underWay inflight)
  given : ∀ a ∈ inflight, a ∈ s.link.answers ∧ a.Given wire
  arriving : s.Arriving wire inflight
  waiters : ∀ t ∈ s.waiters, t.Fresh
  free : s.holder = none → s.link.Stale
  held : ∀ t, s.holder = some t → t.Sent s.link

/-- A caller's request, at the lock or sent. -/
def Owned (s : AsyncConnector) (t : Transmission) : Prop :=
  ∃ e, s.calls.get? t.caller = some e ∧
    (t.header.requestType ≠ .getObject → ∀ id length, e.call ≠ .getObject id length) ∧
    ((t.payload).isSome = true → ∀ id length, e.call ≠ .getObject id length)

/-- What is known of a future. -/
structure FutureOk (wire : Wire) (s : AsyncConnector) (f : CallerId) (r : GetFuture) : Prop where
  made : (s.calls.get? f).isSome = true
  pending : r.state = .pending → s.pendingGetRequests.get? r.objectID = some f
  alive : r.state ≠ .cancelled
  received : ∀ payload, r.state = .result payload →
    Received wire s.link.answers r.objectID r.maxPayloadLength payload

/-- What is known of a get: its future is one for the same request, and unless it was told to
stop it ends with the object. -/
structure GetOk (wire : Wire) (s : AsyncConnector) (e : AsyncCall) (id : ObjectID) (length : UInt64) :
    Prop where
  future : ∃ r, s.futures.get? e.future = some r ∧ r.objectID = id ∧ r.maxPayloadLength = length
  done : ∀ outcome, e.phase = .done outcome → e.cancelRequested = false →
    ∃ payload, outcome = .payload payload ∧ Received wire s.link.answers id length payload

/-- The part of the invariant that is about callers. -/
structure Sound (wire : Wire) (s : AsyncConnector) : Prop where
  futures : ∀ f r, s.futures.get? f = some r → s.FutureOk wire f r
  gets : ∀ g e id length, s.calls.get? g = some e → e.call = .getObject id length →
    s.GetOk wire e id length
  errors : .invalidState ∉ s.errors

structure Healthy (wire : Wire) (s : AsyncConnector) (extra : List ObjectRequestHeader) : Prop where
  sound : s.Sound wire
  owned : ∀ t, t ∈ s.waiters ∨ s.holder = some t → s.Owned t
  live : s.socket = true → ∃ inflight, s.Live wire extra inflight
  dead : s.socket = false → (∀ id, s.pendingGetRequests.get? id = none) ∧
    ∀ t ∈ s.waiters, t.header.requestType ≠ .getObject

/-- Steps that leave the callers and their futures alone. -/
theorem Sound.congr (h : s.Sound wire) {s' : AsyncConnector} (hcalls : s'.calls = s.calls)
    (hfutures : s'.futures = s.futures) (hpending : s'.pendingGetRequests = s.pendingGetRequests)
    (herrors : .invalidState ∉ s'.errors) (hsub : ∀ a ∈ s.link.answers, a ∈ s'.link.answers) :
    s'.Sound wire where
  futures f r hf := by
    rw [hfutures] at hf
    have hok := h.futures f r hf
    refine ⟨?_, ?_, hok.alive, fun payload hp => (hok.received payload hp).mono hsub⟩
    · rw [hcalls]
      exact hok.made
    · rw [hpending]
      exact hok.pending
  gets g e id length hg he := by
    rw [hcalls] at hg
    have hok := h.gets g e id length hg he
    refine ⟨?_, ?_⟩
    · rw [hfutures]
      exact hok.future
    · intro outcome hd hc
      obtain ⟨payload, hp, hr⟩ := hok.done outcome hd hc
      exact ⟨payload, hp, hr.mono hsub⟩
  errors := herrors

theorem Sound.touch (h : s.Sound wire) {g : CallerId} {e e' : AsyncCall} (he : s.calls.get? g = some e)
    (hcall : e'.call = e.call) (hfuture : e'.future = e.future)
    (hdone : ∀ id length, e.call = .getObject id length → ∀ outcome, e'.phase = .done outcome →
      e'.cancelRequested = false → ∃ payload, outcome = .payload payload ∧
        Received wire s.link.answers id length payload) :
    Sound wire { s with calls := s.calls.set g e' } where
  futures f r hf := by
    have hok := h.futures f r hf
    refine ⟨?_, hok.pending, hok.alive, hok.received⟩
    by_cases hfg : f = g
    · subst hfg
      dsimp only
      rw [Dict.get?_set_self]
      rfl
    · dsimp only
      rw [Dict.get?_set_ne _ hfg]
      exact hok.made
  gets g' e₀ id length hg hc := by
    dsimp only at hg
    by_cases hgg : g' = g
    · subst hgg
      rw [Dict.get?_set_self] at hg
      cases hg
      rw [hcall] at hc
      have hok := h.gets g' e id length he hc
      refine ⟨?_, hdone id length hc⟩
      rw [hfuture]
      exact hok.future
    · rw [Dict.get?_set_ne _ hgg] at hg
      have hok := h.gets g' e₀ id length hg hc
      exact ⟨hok.future, hok.done⟩
  errors := h.errors

theorem Owned.touch {t : Transmission} (h : s.Owned t) {g : CallerId} {e e' : AsyncCall}
    (he : s.calls.get? g = some e) (hcall : e'.call = e.call) :
    Owned { s with calls := s.calls.set g e' } t := by
  obtain ⟨e₀, h₀, hrest⟩ := h
  by_cases hg : t.caller = g
  · subst hg
    rw [he] at h₀
    cases h₀
    refine ⟨e', Dict.get?_set_self _ _ _, ?_⟩
    rw [hcall]
    exact hrest
  · exact ⟨e₀, (Dict.get?_set_ne _ hg _).trans h₀, hrest⟩

theorem Live.calls (h : s.Live wire extra inflight) (calls : Dict CallerId AsyncCall) :
    Live wire { s with calls := calls } extra inflight :=
  ⟨h.registered, h.given, h.arriving, h.waiters, h.free, h.held⟩

theorem Healthy.touch (h : s.Healthy wire extra) {g : CallerId} {e e' : AsyncCall}
    (he : s.calls.get? g = some e) (hcall : e'.call = e.call) (hfuture : e'.future = e.future)
    (hdone : ∀ id length, e.call = .getObject id length → ∀ outcome, e'.phase = .done outcome →
      e'.cancelRequested = false → ∃ payload, outcome = .payload payload ∧
        Received wire s.link.answers id length payload) :
    Healthy wire { s with calls := s.calls.set g e' } extra where
  sound := h.sound.touch he hcall hfuture hdone
  owned t ht := (h.owned t ht).touch he hcall
  live hs := by
    obtain ⟨inflight, hl⟩ := h.live hs
    exact ⟨inflight, hl.calls _⟩
  dead := h.dead

theorem Healthy.setPhase (h : s.Healthy wire extra) {g : CallerId} {phase : CallPhase}
    (hdone : ∀ e id length outcome, s.calls.get? g = some e → e.call = .getObject id length →
      phase = .done outcome → ∃ payload, outcome = .payload payload ∧
        Received wire s.link.answers id length payload) :
    (s.setPhase g phase).Healthy wire extra := by
  unfold AsyncConnector.setPhase
  cases he : s.calls.get? g with
  | none => exact h
  | some e =>
    refine h.touch he rfl rfl ?_
    intro id length hc outcome hp _
    exact hdone e id length outcome he hc hp

theorem Healthy.enqueue (h : s.Healthy wire (t.header :: extra)) (hs : s.socket = true) (ht : t.Fresh)
    (ho : s.Owned t) : Healthy wire { s with waiters := s.waiters ++ [t] } extra where
  sound := h.sound.congr rfl rfl rfl h.sound.errors fun _ ha => ha
  owned t' ht' := by
    rcases ht' with hmem | hheld
    · rcases List.mem_append.mp hmem with hmem | hmem
      · exact h.owned t' (.inl hmem)
      · rw [List.mem_singleton.mp hmem]
        exact ho
    · exact h.owned t' (.inr hheld)
  live _ := by
    obtain ⟨inflight, hl⟩ := h.live hs
    refine ⟨inflight, ?_, hl.given, hl.arriving, ?_, hl.free, hl.held⟩
    · refine hl.registered.perm ?_
      have hmiddle := (@List.perm_middle _ t.header (extra ++ s.waiters.map (·.header))
        (s.link.outstanding.map (·.header) ++ inflight.map (·.request.header))).symm
      simpa [underWay] using hmiddle
    · intro t' ht'
      rcases List.mem_append.mp ht' with hmem | hmem
      · exact hl.waiters t' hmem
      · rw [List.mem_singleton.mp hmem]
        exact ht
  dead hd := by
    rw [hs] at hd
    cases hd

theorem Healthy.startSend (h : s.Healthy wire (t.header :: extra)) (hs : s.socket = true)
    (hfree : s.holder = none) (ht : t.Fresh) (ho : s.Owned t) : (s.startSend wire t).Healthy wire extra := by
  unfold AsyncConnector.startSend
  rw [if_pos hs]
  obtain ⟨inflight, hl⟩ := h.live hs
  obtain ⟨hsent, hout⟩ := ht.deliver wire s.identity (hl.free hfree)
  refine ⟨h.sound.congr rfl rfl rfl h.sound.errors fun _ ha => ha, ?_, ?_, ?_⟩
  · rintro t' (hmem | hheld)
    · exact h.owned t' (.inl hmem)
    · cases hheld
      exact ho
  · intro _
    refine ⟨inflight, ?_, hl.given, hl.arriving, hl.waiters, ?_, ?_⟩
    · simp only [underWay, hout]
      cases hp : t.header.requestType.hasPayload with
      | true =>
        rw [if_pos rfl]
        refine hl.registered.sublist (List.sublist_cons_self _ _) ?_
        intro x hx hg
        rcases List.mem_cons.mp hx with rfl | hx
        · rw [hg] at hp
          cases hp
        · exact hx
      | false =>
        rw [if_neg Bool.false_ne_true]
        refine hl.registered.perm ?_
        have hmiddle := (@List.perm_middle _ t.header
          (extra ++ (s.waiters.map (·.header) ++ s.link.outstanding.map (·.header)))
          (inflight.map (·.request.header))).symm
        simpa [underWay] using hmiddle
    · intro hnone
      cases hnone
    · rintro t' ⟨⟩
      exact hsent
  · intro hd
    rw [hs] at hd
    cases hd

theorem Healthy.skip (h : s.Healthy wire extra) (header : ObjectRequestHeader)
    (hne : header.requestType ≠ .getObject) : s.Healthy wire (header :: extra) :=
  ⟨h.sound, h.owned, fun hs => (h.live hs).imp fun _ hl => { hl with registered := hl.registered.skip hne },
    h.dead⟩

theorem Healthy.drop {header : ObjectRequestHeader} (h : s.Healthy wire (header :: extra))
    (hne : header.requestType ≠ .getObject) : s.Healthy wire extra := by
  refine ⟨h.sound, h.owned, fun hs => ?_, h.dead⟩
  obtain ⟨inflight, hl⟩ := h.live hs
  refine ⟨inflight, { hl with registered := hl.registered.sublist (List.sublist_cons_self _ _) ?_ }⟩
  intro x hx hg
  rcases List.mem_cons.mp hx with rfl | hx
  · exact absurd hg hne
  · exact hx

variable (wire) in
theorem StorageCall.header_get_iff (c : StorageCall) (n : UInt64) :
    (c.header wire n).requestType = .getObject ↔ ∃ id length, c = .getObject id length := by
  cases c <;> simp [StorageCall.header]

theorem StorageCall.ne_get_of_payload {c : StorageCall} (hp : (c.payload wire).isSome = true)
    (id : ObjectID) (length : UInt64) : c ≠ .getObject id length := by
  rintro rfl
  cases hp

theorem Healthy.sendRequest {g : CallerId} {c : StorageCall} {e : AsyncCall}
    (h : s.Healthy wire (c.header wire (.ofNat s.nextRequestId) :: extra)) (hs : s.socket = true)
    (he : s.calls.get? g = some e) (hc : e.call = c) : (s.sendRequest wire g c).Healthy wire extra := by
  have hnext : Healthy wire { s with nextRequestId := (s.nextRequestId + 1) % (2 ^ 64 - 1) }
      (c.header wire (.ofNat s.nextRequestId) :: extra) :=
    ⟨h.sound.congr rfl rfl rfl h.sound.errors fun _ ha => ha, h.owned,
      fun hs => (h.live hs).imp fun _ hl => { hl with }, h.dead⟩
  unfold AsyncConnector.sendRequest
  rw [if_neg (by simp [hs])]
  dsimp only
  split
  · next hover =>
    obtain ⟨payload, hp, -⟩ := hover
    have hne : ∀ id length, c ≠ .getObject id length :=
      StorageCall.ne_get_of_payload (c := c) (by rw [hp]; rfl)
    have hheader : (c.header wire (.ofNat s.nextRequestId)).requestType ≠ .getObject := by
      rw [Ne, StorageCall.header_get_iff]
      rintro ⟨id, length, rfl⟩
      exact hne id length rfl
    refine Healthy.setPhase (hnext.drop hheader) ?_
    intro e' id length outcome he' hc' _
    rw [he] at he'
    cases he'
    exact absurd (hc ▸ hc') (hne id length)
  · next hfits =>
    have ht : Transmission.Fresh ⟨g, c.header wire (.ofNat s.nextRequestId), c.payload wire⟩ := by
      refine ⟨StorageCall.header_known wire c _, StorageCall.header_hasPayload wire c _, ?_⟩
      intro payload hp
      refine StorageCall.header_payloadLength hp ?_ _
      by_contra hlong
      exact hfits ⟨payload, hp, by omega⟩
    have ho : Owned { s with nextRequestId := (s.nextRequestId + 1) % (2 ^ 64 - 1) }
        ⟨g, c.header wire (.ofNat s.nextRequestId), c.payload wire⟩ := by
      refine ⟨e, he, ?_, ?_⟩
      · intro hne id length hget
        exact hne ((StorageCall.header_get_iff wire c _).mpr ⟨id, length, hc.symm.trans hget⟩)
      · intro hp id length
        rw [hc]
        exact StorageCall.ne_get_of_payload hp id length
    split
    · next hfree _ => exact hnext.startSend hs hfree ht ho
    · exact Healthy.enqueue (s := { s with nextRequestId := (s.nextRequestId + 1) % (2 ^ 64 - 1) }) hnext hs ht ho

/-- The conditions under which fetches are independent: a get starts on a living connection,
for the length of the one it joins; no caller is cancelled at the lock or while it waits for
its response, nor between a header and a payload of the same length; and the connection only
fails when no get is under way. -/
def Careful (s : AsyncConnector) : AsyncEvent → Prop
  | .call _ (.getObject id length) => s.socket = true ∧ ∀ f r, s.pendingGetRequests.get? id = some f →
    s.futures.get? f = some r → r.maxPayloadLength = length
  | .cancel g =>
    (∀ t ∈ s.waiters, t.caller = g → t.header.requestType ≠ .getObject) ∧
    (∀ t ∈ s.holder, t.caller = g → ∀ payload ∈ t.payload, payload.length ≠ capnpHeaderSize) ∧
    ∀ e r, s.calls.get? g = some e → e.phase = .awaiting → s.futures.get? e.future = some r →
      r.state ≠ .pending
  | .sendFailed => (∀ id, s.pendingGetRequests.get? id = none) ∧
    ∀ t ∈ s.holder, t.header.requestType ≠ .getObject
  | .receiveFailed => ∀ id, s.pendingGetRequests.get? id = none
  | _ => True

theorem Owned.enter (h : s.Owned t) {g : CallerId} (hg : s.calls.get? g = none) (e : AsyncCall) :
    Owned { s with calls := s.calls.set g e } t := by
  obtain ⟨e₀, h₀, hrest⟩ := h
  have hne : t.caller ≠ g := by
    rintro rfl
    rw [hg] at h₀
    cases h₀
  exact ⟨e₀, (Dict.get?_set_ne _ hne _).trans h₀, hrest⟩

theorem FutureOk.enter {f : CallerId} {r : GetFuture} (h : s.FutureOk wire f r) (g : CallerId)
    (e : AsyncCall) : FutureOk wire { s with calls := s.calls.set g e } f r := by
  refine ⟨?_, h.pending, h.alive, h.received⟩
  dsimp only
  rw [Dict.get?_set]
  split
  · rfl
  · exact h.made

theorem Healthy.enter (h : s.Healthy wire extra) {g : CallerId} (hg : s.calls.get? g = none) {e : AsyncCall}
    (he : ∀ id length, e.call = .getObject id length → s.GetOk wire e id length) :
    Healthy wire { s with calls := s.calls.set g e } extra where
  sound :=
    { futures := fun f r hf => (h.sound.futures f r hf).enter g e
      gets := fun g' e' id length hg' hc => by
        dsimp only at hg'
        rw [Dict.get?_set] at hg'
        split at hg'
        · cases hg'
          exact ⟨(he id length hc).future, (he id length hc).done⟩
        · have hok := h.sound.gets g' e' id length hg' hc
          exact ⟨hok.future, hok.done⟩
      errors := h.sound.errors }
  owned t ht := (h.owned t ht).enter hg e
  live hs := (h.live hs).imp fun _ hl => hl.calls _
  dead := h.dead

/-- The future of a caller that is the first to ask. -/
theorem Healthy.register (h : s.Healthy wire []) (hs : s.socket = true) {g : CallerId}
    (hg : s.calls.get? g = none) {id : ObjectID} {length : UInt64}
    (hnone : s.pendingGetRequests.get? id = none) (n : UInt64) :
    Healthy wire
      { s with
        calls := s.calls.set g ⟨.getObject id length, g, .sending, false⟩
        futures := s.futures.set g ⟨id, length, .pending⟩
        pendingGetRequests := s.pendingGetRequests.set id g }
      [(StorageCall.getObject id length).header wire n] := by
  have hfresh : s.futures.get? g = none := by
    cases hf : s.futures.get? g with
    | none => rfl
    | some r =>
      have hmade := (h.sound.futures g r hf).made
      rw [hg] at hmade
      cases hmade
  refine ⟨⟨?_, ?_, h.sound.errors⟩, ?_, ?_, ?_⟩
  · intro f r hf
    dsimp only at hf
    by_cases hfg : f = g
    · subst hfg
      rw [Dict.get?_set_self] at hf
      cases hf
      exact ⟨by simp [Dict.get?_set_self], fun _ => Dict.get?_set_self _ _ _, by simp, by simp⟩
    · rw [Dict.get?_set_ne _ hfg] at hf
      have hok := h.sound.futures f r hf
      refine ⟨(hok.enter g _).made, ?_, hok.alive, hok.received⟩
      intro hp
      have hold := hok.pending hp
      have hne : r.objectID ≠ id := by
        rintro rfl
        rw [hnone] at hold
        cases hold
      exact (Dict.get?_set_ne _ hne _).trans hold
  · intro g' e id' length' hg' hc
    dsimp only at hg'
    by_cases hgg : g' = g
    · subst hgg
      rw [Dict.get?_set_self] at hg'
      cases hg'
      cases hc
      refine ⟨⟨_, Dict.get?_set_self _ _ _, rfl, rfl⟩, ?_⟩
      intro outcome hp
      cases hp
    · rw [Dict.get?_set_ne _ hgg] at hg'
      have hok := h.sound.gets g' e id' length' hg' hc
      obtain ⟨r, hr, hrest⟩ := hok.future
      have hne : e.future ≠ g := by
        intro hfg
        rw [hfg, hfresh] at hr
        cases hr
      exact ⟨⟨r, (Dict.get?_set_ne _ hne _).trans hr, hrest⟩, hok.done⟩
  · intro t ht
    exact (h.owned t ht).enter hg _
  · intro _
    obtain ⟨inflight, hl⟩ := h.live hs
    exact ⟨inflight,
      { hl with registered := hl.registered.register (h := (StorageCall.getObject id length).header wire n)
                  hfresh hnone rfl }⟩
  · intro hd
    rw [hs] at hd
    cases hd

theorem Healthy.beginCall (h : s.Healthy wire []) {g : CallerId} {c : StorageCall}
    (hc : s.Careful (.call g c)) : (s.beginCall wire g c).Healthy wire [] := by
  unfold AsyncConnector.beginCall
  split
  · exact h
  · next hnew =>
    have hg : s.calls.get? g = none := by simpa [Dict.contains] using hnew
    have hother : (∀ id length, c ≠ .getObject id length) →
        (({ s with calls := s.calls.set g ⟨c, g, .sending, false⟩ } : AsyncConnector).sendRequest wire g c).Healthy
          wire [] := by
      intro hne
      have henter := h.enter hg (e := ⟨c, g, .sending, false⟩) fun id length he => absurd he (hne id length)
      by_cases hs : s.socket = true
      · refine (henter.skip (c.header wire (.ofNat s.nextRequestId)) ?_).sendRequest hs
          (Dict.get?_set_self _ _ _) rfl
        rw [Ne, StorageCall.header_get_iff]
        rintro ⟨id, length, rfl⟩
        exact hne id length rfl
      · unfold AsyncConnector.sendRequest
        rw [if_pos (by simpa using hs)]
        refine Healthy.setPhase henter ?_
        intro e id length outcome he hcall _
        rw [Dict.get?_set_self] at he
        cases he
        exact absurd hcall (hne id length)
    cases c with
    | getObject id length =>
      obtain ⟨hs, hsame⟩ := hc
      dsimp only
      split
      · next f hf =>
        obtain ⟨inflight, hl⟩ := h.live hs
        obtain ⟨header, hheader, hgets⟩ := hl.registered.live id f hf
        obtain ⟨f', hf', hfuture⟩ := hl.registered.known header hheader id hgets
        rw [hf] at hf'
        cases hf'
        refine h.enter hg ?_
        rintro id' length' ⟨⟩
        exact ⟨⟨_, hfuture, rfl, hsame f _ hf hfuture⟩, fun outcome hp => by cases hp⟩
      · next hnone =>
        exact Healthy.sendRequest (h.register hs hg hnone _) hs (Dict.get?_set_self _ _ _) rfl
    | setObject id payload => exact hother (by simp)
    | deleteObject id => exact hother (by simp)
    | duplicateObjectID id new => exact hother (by simp)

theorem Healthy.acquire (h : s.Healthy wire []) : (s.step wire .acquire).Healthy wire [] := by
  unfold AsyncConnector.step
  dsimp only
  split
  · next t waiters hfree hw =>
    have hmem : t ∈ s.waiters := by
      rw [hw]
      exact List.mem_cons_self
    have hsub : ∀ x ∈ waiters, x ∈ s.waiters := by
      intro x hx
      rw [hw]
      exact List.mem_cons_of_mem _ hx
    have ho := h.owned t (.inl hmem)
    have hpopped : Healthy wire { s with waiters := waiters } [t.header] := by
      refine ⟨h.sound.congr rfl rfl rfl h.sound.errors fun _ ha => ha, ?_, ?_, ?_⟩
      · rintro x (hx | hx)
        · exact h.owned x (.inl (hsub x hx))
        · exact h.owned x (.inr hx)
      · intro hs
        obtain ⟨inflight, hl⟩ := h.live hs
        refine ⟨inflight, ?_, hl.given, hl.arriving, fun x hx => hl.waiters x (hsub x hx), hl.free, hl.held⟩
        simpa [underWay, hw] using hl.registered
      · intro hd
        exact ⟨(h.dead hd).1, fun x hx => (h.dead hd).2 x (hsub x hx)⟩
    by_cases hs : s.socket = true
    · obtain ⟨inflight, hl⟩ := h.live hs
      exact hpopped.startSend hs hfree (hl.waiters t hmem) ho
    · have hdead : s.socket = false := by simpa using hs
      have hne := (h.dead hdead).2 t hmem
      unfold AsyncConnector.startSend
      rw [if_neg hs]
      refine Healthy.setPhase (hpopped.drop hne) ?_
      intro e id length outcome he hc _
      obtain ⟨e', he', hget, -⟩ := ho
      dsimp only at he
      rw [he'] at he
      cases he
      exact absurd hc (hget hne id length)
  · exact h

/-- Without a future that is waited for, no get is at the lock. -/
theorem Healthy.noGets (h : s.Healthy wire []) (hnone : ∀ id, s.pendingGetRequests.get? id = none) :
    ∀ t ∈ s.waiters, t.header.requestType ≠ .getObject := by
  intro t ht hget
  by_cases hs : s.socket = true
  · obtain ⟨inflight, hl⟩ := h.live hs
    have hmem : t.header ∈ [] ++ s.underWay inflight :=
      List.mem_append_right _ (List.mem_append_left _ (List.mem_map_of_mem ht))
    obtain ⟨f, hf, -⟩ := hl.registered.known t.header hmem t.header.objectID
      (ObjectRequestHeader.gets_iff.mpr ⟨hget, rfl⟩)
    rw [hnone] at hf
    cases hf
  · exact (h.dead (by simpa using hs)).2 t ht hget

/-- The lock is released by a request that was sent to its end, or on a dead connection. -/
theorem Healthy.release (h : s.Healthy wire []) (hstale : s.socket = true → s.link.Stale) :
    Healthy wire { s with holder := none } [] where
  sound := h.sound.congr rfl rfl rfl h.sound.errors fun _ ha => ha
  owned x hx := by
    rcases hx with hx | hx
    · exact h.owned x (.inl hx)
    · cases hx
  live hs := by
    obtain ⟨inflight, hl⟩ := h.live hs
    exact ⟨inflight, hl.registered, hl.given, hl.arriving, hl.waiters, fun _ => hstale hs,
      fun x hx => by cases hx⟩
  dead := h.dead

theorem Healthy.afterSend (h : s.Healthy wire []) (g : CallerId) : (s.afterSend g).Healthy wire [] := by
  unfold AsyncConnector.afterSend
  split
  · exact h
  · next e he =>
    split
    · refine h.setPhase ?_
      intro e' id length outcome _ _ hp
      cases hp
    · next hne =>
      refine h.setPhase ?_
      intro e' id length outcome he' hc _
      rw [he] at he'
      cases he'
      exact absurd hc (hne id length)

theorem Healthy.onSent (h : s.Healthy wire []) : (s.onSent wire).Healthy wire [] := by
  unfold AsyncConnector.onSent
  split
  · exact h
  · next t ht =>
    have ho := h.owned t (.inr ht)
    split
    · next hp =>
      refine (h.release ?_).afterSend t.caller
      intro hs
      obtain ⟨inflight, hl⟩ := h.live hs
      have hsent := hl.held t ht
      unfold Transmission.Sent at hsent
      rw [hp] at hsent
      exact hsent
    · next payload hp =>
      have hother : ∀ e id length, s.calls.get? t.caller = some e → e.call ≠ .getObject id length := by
        intro e id length he
        obtain ⟨e', he', -, hget⟩ := ho
        rw [he'] at he
        cases he
        exact hget (by rw [hp]; rfl) id length
      split
      · next hs =>
        obtain ⟨inflight, hl⟩ := h.live hs
        obtain ⟨hstale, hout⟩ := (hl.held t ht).deliver wire s.identity hp
        have hne : t.header.requestType ≠ .getObject := by
          have hsent := hl.held t ht
          unfold Transmission.Sent at hsent
          rw [hp] at hsent
          obtain ⟨-, -, -, -, hyes⟩ := hsent
          intro hget
          rw [hget] at hyes
          cases hyes
        refine ⟨h.sound.congr rfl rfl rfl h.sound.errors fun _ ha => ha, ?_, ?_, ?_⟩
        · rintro x (hx | hx)
          · exact h.owned x (.inl hx)
          · cases hx
            obtain ⟨e, he, hget, -⟩ := ho
            exact ⟨e, he, hget, fun hsome => by cases hsome⟩
        · intro _
          refine ⟨inflight, ?_, hl.given, hl.arriving, hl.waiters, ?_, ?_⟩
          · have hskip := hl.registered.skip hne
            refine hskip.perm ?_
            have hmiddle := (@List.perm_middle _ t.header
              (s.waiters.map (·.header) ++ s.link.outstanding.map (·.header))
              (inflight.map (·.request.header))).symm
            simpa [underWay, hout] using hmiddle
          · intro hnone
            cases hnone
          · rintro x ⟨⟩
            exact hstale
        · intro hd
          rw [hs] at hd
          cases hd
      · next hs =>
        refine Healthy.setPhase (h.release fun hlive => absurd hlive hs) ?_
        intro e id length outcome he hc _
        exact absurd hc (hother e id length he)

theorem Healthy.sendFailed (h : s.Healthy wire []) (hc : s.Careful .sendFailed) :
    (s.step wire .sendFailed).Healthy wire [] := by
  obtain ⟨hnone, hget⟩ := hc
  unfold AsyncConnector.step
  dsimp only
  split
  · exact h
  · next t ht =>
    have hfailed : Healthy wire { s with socket := false, holder := none } [] := by
      refine ⟨h.sound.congr rfl rfl rfl h.sound.errors fun _ ha => ha, ?_, ?_, ?_⟩
      · rintro x (hx | hx)
        · exact h.owned x (.inl hx)
        · cases hx
      · intro hs
        cases hs
      · intro _
        exact ⟨hnone, h.noGets hnone⟩
    refine hfailed.setPhase ?_
    intro e id length outcome he hcall _
    obtain ⟨e', he', hother, -⟩ := h.owned t (.inr ht)
    dsimp only at he
    rw [he'] at he
    cases he
    exact absurd hcall (hother (hget t ht) id length)

theorem Healthy.leave (h : s.Healthy wire []) {g : CallerId} (hc : s.Careful (.cancel g)) :
    Healthy wire
      { s with
        waiters := s.waiters.filter fun t => t.caller ≠ g
        holder := s.holder.filter fun t => t.caller ≠ g } [] := by
  obtain ⟨hwaiters, hholder, -⟩ := hc
  have hmem : ∀ t ∈ s.waiters.filter (fun t => t.caller ≠ g), t ∈ s.waiters :=
    fun t ht => List.mem_of_mem_filter ht
  have hheld : ∀ t, s.holder.filter (fun t => t.caller ≠ g) = some t → s.holder = some t := by
    intro t ht
    exact (Option.filter_eq_some_iff.mp ht).1
  refine ⟨h.sound.congr rfl rfl rfl h.sound.errors fun _ ha => ha, ?_, ?_, ?_⟩
  · rintro t (ht | ht)
    · exact h.owned t (.inl (hmem t ht))
    · exact h.owned t (.inr (hheld t ht))
  · intro hs
    obtain ⟨inflight, hl⟩ := h.live hs
    refine ⟨inflight, ?_, hl.given, hl.arriving, fun t ht => hl.waiters t (hmem t ht), ?_,
      fun t ht => hl.held t (hheld t ht)⟩
    · have hsub := (@List.filter_sublist _ (fun t => t.caller ≠ g) s.waiters).map (·.header)
      refine hl.registered.sublist (hsub.append_right _) ?_
      intro x hx hget
      rw [List.nil_append] at hx ⊢
      rcases List.mem_append.mp hx with hx | hx
      · obtain ⟨t, ht, rfl⟩ := List.mem_map.mp hx
        have hne : t.caller ≠ g := fun hg => hwaiters t ht hg hget
        exact List.mem_append_left _ (List.mem_map_of_mem (List.mem_filter.mpr ⟨ht, by simpa using hne⟩))
      · exact List.mem_append_right _ hx
    · intro hnone
      cases hh : s.holder with
      | none => exact hl.free hh
      | some t =>
        have hg : t.caller = g := by
          dsimp only at hnone
          rw [hh] at hnone
          simpa [Option.filter] using hnone
        have hsent := hl.held t hh
        unfold Transmission.Sent at hsent
        split at hsent
        · exact hsent
        · next payload hp =>
          obtain ⟨full, hhalf, hheader, hlength, -⟩ := hsent
          intro full' hfull
          dsimp only at hfull
          rw [hhalf] at hfull
          cases hfull
          rw [hheader, hlength]
          exact hholder t hh hg payload hp
  · intro hd
    exact ⟨(h.dead hd).1, fun t ht => (h.dead hd).2 t (hmem t ht)⟩

theorem Healthy.cancel (h : s.Healthy wire []) {g : CallerId} (hc : s.Careful (.cancel g)) :
    (s.cancel g).Healthy wire [] := by
  unfold AsyncConnector.cancel
  split
  · exact h
  · next e he =>
    dsimp only
    split
    · exact h
    · refine Healthy.touch (h.leave hc) he rfl rfl ?_
      intro id length _ outcome _ hrequested
      cases hrequested
    · next hp =>
      have htouch : Healthy wire
          { s with calls := s.calls.set g { e with phase := .done .cancelled, cancelRequested := true } } [] := by
        refine h.touch he rfl rfl ?_
        intro id length _ outcome _ hrequested
        cases hrequested
      split
      · next hf => exact absurd rfl (hc.2.2 e _ he hp hf)
      · exact htouch

theorem Healthy.wake (h : s.Healthy wire []) (g : CallerId) : (s.wake g).Healthy wire [] := by
  unfold AsyncConnector.wake
  split
  · next c f requested he =>
    split
    · next id length payload hf =>
      refine h.setPhase ?_
      rintro e id' length' outcome he' hc ⟨⟩
      rw [he] at he'
      cases he'
      obtain ⟨r, hr, hid, hlength⟩ := (h.sound.gets g _ id' length' he hc).future
      have hok := h.sound.futures f _ hf
      dsimp only at hr
      rw [hf] at hr
      cases hr
      dsimp only at hid hlength
      subst hid hlength
      exact ⟨payload, rfl, hok.received payload rfl⟩
    · next id length hf => exact absurd rfl (h.sound.futures f _ hf).alive
    · exact h
  · exact h

/-- A response to a get resolves the future of that object. -/
theorem Healthy.onResponse {a : Answer} (h : s.Healthy wire [a.request.header]) (hs : s.socket = true)
    (hidle : s.routine = .idle) (ha : a ∈ s.link.answers) (hgiven : a.Given wire) :
    (s.onResponse a.reply.header a.reply.payload).Healthy wire [] := by
  obtain ⟨htype, hget⟩ := hgiven.gets
  have hsame : { s with routine := .idle } = s := by rw [← hidle]
  unfold AsyncConnector.onResponse
  dsimp only
  rw [hsame]
  split
  · next hother => exact h.drop fun hg => hother (htype.mpr hg)
  · next hok =>
    have hrequest := htype.mp (by simpa using hok)
    obtain ⟨hid, full, hheld, hpayload⟩ := hget hrequest
    obtain ⟨inflight, hl⟩ := h.live hs
    have hgets : a.request.header.gets a.request.header.objectID = true :=
      ObjectRequestHeader.gets_iff.mpr ⟨hrequest, rfl⟩
    obtain ⟨f, hpending, hfuture, htaken⟩ := hl.registered.take hgets
    have hreceived : Received wire s.link.answers a.request.header.objectID a.request.header.payloadLength
        a.reply.payload := ⟨a, ha, hgiven, hrequest, rfl, full, hheld, hpayload⟩
    rw [hid]
    simp only [hpending, hfuture, setFuture]
    refine ⟨⟨?_, ?_, h.sound.errors⟩, h.owned, ?_, ?_⟩
    · intro f' r hf'
      dsimp only at hf'
      by_cases hff : f' = f
      · subst hff
        rw [Dict.get?_set_self] at hf'
        cases hf'
        refine ⟨(h.sound.futures f' _ hfuture).made, by simp, by simp, ?_⟩
        rintro payload ⟨⟩
        exact hreceived
      · rw [Dict.get?_set_ne _ hff] at hf'
        have hold := h.sound.futures f' r hf'
        refine ⟨hold.made, ?_, hold.alive, hold.received⟩
        intro hp
        have hwaits := hold.pending hp
        have hne : r.objectID ≠ a.request.header.objectID := by
          intro he
          rw [he, hpending] at hwaits
          exact hff (Option.some.inj hwaits).symm
        exact (Dict.get?_erase_ne _ hne).trans hwaits
    · intro g e id length hg hc
      have hold := h.sound.gets g e id length hg hc
      refine ⟨?_, hold.done⟩
      obtain ⟨r, hr, hrest⟩ := hold.future
      by_cases hff : e.future = f
      · rw [hff, hfuture] at hr
        cases hr
        refine ⟨⟨_, _, .result a.reply.payload⟩, ?_, hrest⟩
        dsimp only
        rw [hff]
        exact Dict.get?_set_self _ _ _
      · exact ⟨r, (Dict.get?_set_ne _ hff _).trans hr, hrest⟩
    · intro _
      have harriving := hl.arriving
      unfold Arriving at harriving
      rw [hidle] at harriving
      exact ⟨inflight, htaken _, hl.given, harriving, hl.waiters, hl.free, hl.held⟩
    · intro hd
      rw [hs] at hd
      cases hd

/-- On a dead connection nobody waits, whatever is read. -/
theorem Healthy.onResponse_dead (h : s.Healthy wire []) (hd : s.socket = false)
    (response : ObjectResponseHeader) (payload : ObjectPayload) :
    (s.onResponse response payload).Healthy wire [] := by
  have hidle : Healthy wire { s with routine := .idle } [] :=
    ⟨h.sound.congr rfl rfl rfl h.sound.errors fun _ ha => ha, h.owned,
      fun hs => (Bool.false_ne_true (hd.symm.trans hs)).elim, h.dead⟩
  unfold AsyncConnector.onResponse
  dsimp only
  split
  · exact hidle
  · simp only [(h.dead hd).1]
    exact hidle

/-- `routine` ends with an exception, after which nothing is read. -/
theorem Healthy.raise_dead (h : s.Healthy wire []) (hd : s.socket = false) (exn : StorageExn) :
    (s.raise (.storage exn)).Healthy wire [] := by
  refine ⟨h.sound.congr rfl rfl rfl ?_ fun _ ha => ha, h.owned, fun hs => ?_, h.dead⟩
  · intro hmem
    rcases List.mem_append.mp hmem with hmem | hmem
    · exact h.sound.errors hmem
    · cases List.mem_singleton.mp hmem
  · have hs : s.socket = true := hs
    rw [hd] at hs
    cases hs

/-- The first frame is the header of the first response in flight. -/
theorem frames_cons {frame : ObjectPayload} {frames : List ObjectPayload}
    (h : frame :: frames = inflight.flatMap (·.reply.frames wire)) :
    ∃ a rest, inflight = a :: rest ∧ frame = wire.response a.reply.header ∧
      frames = (if a.reply.payload = [] then [] else [a.reply.payload]) ++
        rest.flatMap (·.reply.frames wire) := by
  cases inflight with
  | nil => cases h
  | cons a rest =>
    rw [List.flatMap_cons, Reply.frames, List.cons_append] at h
    obtain ⟨rfl, rfl⟩ := List.cons.inj h
    exact ⟨a, rest, rfl, rfl, rfl⟩

theorem Healthy.popped (h : s.Healthy wire []) (hs : s.socket = true) {a : Answer} {rest : List Answer}
    (hl : s.Live wire [] (a :: rest)) :
    Healthy wire
      { s with
        routine := .idle
        link := { s.link with frames := rest.flatMap (·.reply.frames wire) } } [a.request.header] := by
  refine ⟨h.sound.congr rfl rfl rfl h.sound.errors fun _ ha => ha, h.owned, fun _ => ?_, ?_⟩
  · refine ⟨rest, ?_, fun b hb => hl.given b (List.mem_cons_of_mem _ hb), rfl, hl.waiters, hl.free, ?_⟩
    · refine hl.registered.perm ?_
      have hmiddle := @List.perm_middle _ a.request.header
        (s.waiters.map (·.header) ++ s.link.outstanding.map (·.header)) (rest.map (·.request.header))
      simpa [underWay] using hmiddle
    · exact hl.held
  · intro hd
    rw [hs] at hd
    cases hd

theorem Healthy.receive (h : s.Healthy wire []) : (s.receive wire).Healthy wire [] := by
  have hpopped : s.socket = false → ∀ frames,
      Healthy wire { s with link := { s.link with frames := frames } } [] := by
    intro hd frames
    exact ⟨h.sound.congr rfl rfl rfl h.sound.errors fun _ ha => ha, h.owned,
      fun hs => (Bool.false_ne_true (hd.symm.trans hs)).elim, h.dead⟩
  unfold AsyncConnector.receive
  split
  · next frame frames hr hf =>
    dsimp only
    by_cases hs : s.socket = true
    · obtain ⟨inflight, hl⟩ := h.live hs
      have harriving := hl.arriving
      unfold Arriving at harriving
      rw [hr, hf] at harriving
      obtain ⟨a, rest, rfl, rfl, rfl⟩ := frames_cons harriving
      obtain ⟨ha, hgiven⟩ := hl.given a List.mem_cons_self
      have hlen := hgiven.length
      rw [if_neg (by simp [wire.length_response]),
        wire.readResponse_response _ (by rw [hlen.1]; exact hlen.2)]
      dsimp only
      rw [if_neg (by simp [hs])]
      split
      · next hpos =>
        have hne : a.reply.payload ≠ [] := by
          intro hnil
          simp [hlen.1, hnil] at hpos
        refine ⟨h.sound.congr rfl rfl rfl h.sound.errors fun _ ha => ha, h.owned, fun _ => ?_, h.dead⟩
        refine ⟨a :: rest, hl.registered, hl.given, ?_, hl.waiters, hl.free, hl.held⟩
        refine ⟨a, rest, rfl, rfl, ?_⟩
        rw [if_neg hne]
        rfl
      · next hpos =>
        have hnil : a.reply.payload = [] := List.eq_nil_of_length_eq_zero (by omega)
        have hdone := (h.popped hs hl).onResponse hs rfl ha hgiven
        rw [if_pos hnil, List.nil_append]
        rw [hnil] at hdone
        exact hdone
    · have hd : s.socket = false := by simpa using hs
      split
      · exact (hpopped hd frames).raise_dead hd _
      · split
        · exact (hpopped hd frames).raise_dead hd _
        · rw [if_pos (by simp [hd])]
          exact (hpopped hd frames).raise_dead hd _
  · next response frame frames hr hf =>
    dsimp only
    by_cases hs : s.socket = true
    · obtain ⟨inflight, hl⟩ := h.live hs
      have harriving := hl.arriving
      unfold Arriving at harriving
      rw [hr, hf] at harriving
      obtain ⟨a, rest, rfl, rfl, hframes⟩ := harriving
      obtain ⟨rfl, rfl⟩ := List.cons.inj hframes
      obtain ⟨ha, hgiven⟩ := hl.given a List.mem_cons_self
      rw [if_pos hgiven.length.1.symm]
      exact (h.popped hs hl).onResponse hs rfl ha hgiven
    · have hd : s.socket = false := by simpa using hs
      split
      · exact (hpopped hd frames).onResponse_dead hd _ _
      · exact (hpopped hd frames).raise_dead hd _
  · exact h

theorem Healthy.receiveFailed (h : s.Healthy wire []) (hc : s.Careful .receiveFailed) :
    (s.step wire .receiveFailed).Healthy wire [] := by
  have hfailed : Healthy wire { s with socket := false } [] :=
    ⟨h.sound.congr rfl rfl rfl h.sound.errors fun _ ha => ha, h.owned,
      fun hs => (Bool.false_ne_true hs).elim, fun _ => ⟨hc, h.noGets hc⟩⟩
  unfold AsyncConnector.step
  dsimp only
  split
  · exact h
  · exact hfailed.raise_dead rfl _

theorem Healthy.routine (h : s.Healthy wire []) : (s.step wire .routine).Healthy wire [] := by
  unfold AsyncConnector.step
  dsimp only
  split
  · next hidle =>
    refine ⟨h.sound.congr rfl rfl rfl h.sound.errors fun _ ha => ha, h.owned, fun hs => ?_, h.dead⟩
    obtain ⟨inflight, hl⟩ := h.live hs
    have harriving := hl.arriving
    unfold Arriving at harriving
    rw [hidle.1] at harriving
    exact ⟨inflight, hl.registered, hl.given, harriving, hl.waiters, hl.free, hl.held⟩
  · exact h

/-- The responses in flight when the server sends one more. -/
theorem Arriving.snoc (h : s.Arriving wire inflight) (a : Answer) (outstanding : List Request)
    (held : ObjectMap) (answers : List Answer) :
    Arriving wire
      { s with
        link := ⟨s.link.half, outstanding, held, s.link.frames ++ a.reply.frames wire, answers⟩ }
      (inflight ++ [a]) := by
  unfold Arriving at h ⊢
  dsimp only
  split
  · next response hr =>
    rw [hr] at h
    obtain ⟨b, rest, rfl, hresponse, hframes⟩ := h
    exact ⟨b, rest ++ [a], rfl, hresponse, by simp [hframes]⟩
  · next hr =>
    split at h
    · next response hr' => exact absurd hr' (hr response)
    · simp [h]

theorem Healthy.answer (h : s.Healthy wire []) (k : Nat) (info : ObjectPayload) :
    Healthy wire { s with link := s.link.answer wire k info } [] := by
  refine ⟨h.sound.congr rfl rfl rfl h.sound.errors fun a ha => mem_answers_answer s.link k info ha, h.owned,
    fun hs => ?_, h.dead⟩
  obtain ⟨inflight, hl⟩ := h.live hs
  unfold Link.answer
  cases hq : s.link.outstanding[k]? with
  | none => exact ⟨inflight, hl⟩
  | some q =>
    dsimp only
    cases he : answerTo wire s.link.held info q with
    | none => exact ⟨inflight, hl⟩
    | some r =>
      obtain ⟨reply, held⟩ := r
      dsimp only
      refine ⟨inflight ++ [⟨q, reply, s.link.held⟩], ?_, ?_, hl.arriving.snoc _ _ _ _, hl.waiters, hl.free,
        hl.held⟩
      · refine hl.registered.perm ?_
        have hsplit : (s.link.outstanding.map (·.header)).Perm
            (q.header :: (s.link.outstanding.eraseIdx k).map (·.header)) := by
          obtain ⟨hk, rfl⟩ := List.getElem?_eq_some_iff.mp hq
          have hperm := (List.getElem_cons_eraseIdx_perm hk).symm.map (·.header)
          simpa using hperm
        have hmoved : (s.link.outstanding.map (·.header) ++ inflight.map (·.request.header)).Perm
            ((s.link.outstanding.eraseIdx k).map (·.header) ++ (inflight.map (·.request.header) ++ [q.header])) := by
          rw [← List.append_assoc]
          exact (hsplit.append_right _).trans (List.perm_append_singleton _ _).symm
        simpa [underWay] using hmoved.append_left (s.waiters.map (·.header))
      · intro a ha
        rcases List.mem_append.mp ha with ha | ha
        · exact ⟨List.mem_append_left _ (hl.given a ha).1, (hl.given a ha).2⟩
        · rw [List.mem_singleton.mp ha]
          exact ⟨List.mem_append_right _ (List.mem_singleton_self _), info, held, he⟩

theorem Healthy.othersChange (h : s.Healthy wire []) (held : ObjectMap) :
    Healthy wire { s with link := { s.link with held := held } } [] :=
  ⟨h.sound.congr rfl rfl rfl h.sound.errors fun _ ha => ha, h.owned,
    fun hs => (h.live hs).imp fun _ hl =>
      ⟨hl.registered, hl.given, hl.arriving, hl.waiters, hl.free, hl.held⟩, h.dead⟩

theorem Healthy.step (h : s.Healthy wire []) (e : AsyncEvent) (he : s.Careful e) :
    (s.step wire e).Healthy wire [] := by
  cases e with
  | call g c => exact h.beginCall he
  | acquire => exact h.acquire
  | sent => exact h.onSent
  | sendFailed => exact h.sendFailed he
  | cancel g => exact h.cancel he
  | wake g => exact h.wake g
  | routine => exact h.routine
  | receive => exact h.receive
  | receiveFailed => exact h.receiveFailed he
  | serverAnswers k info => exact h.answer k info
  | othersChange held => exact h.othersChange held

theorem start_healthy (identity : Identity) (held : ObjectMap) :
    (AsyncConnector.start identity held).Healthy wire [] := by
  refine ⟨⟨?_, ?_, by simp [AsyncConnector.start]⟩, ?_, fun _ => ⟨[], ?_⟩, ?_⟩
  · intro f r hf
    cases hf
  · intro g e id length hg
    cases hg
  · rintro t (ht | ht)
    · cases ht
    · cases ht
  · refine ⟨⟨fun id => Nat.zero_le _, fun h hh => ?_, fun id f hf => ?_⟩, fun a ha => ?_, rfl, fun t ht => ?_,
      fun _ full hfull => ?_, fun t ht => ?_⟩
    · cases hh
    · cases hf
    · cases ha
    · cases ht
    · cases hfull
    · cases ht
  · intro hd
    cases hd

/-- A get request is on its way: at the lock, at the server, or its response is coming. -/
def Coming (wire : Wire) (s : AsyncConnector) (id : ObjectID) : Prop :=
  (∃ t ∈ s.waiters, t.header.gets id = true) ∨ (∃ q ∈ s.link.outstanding, q.header.gets id = true) ∨
    ∃ a ∈ s.link.answers, a.request.header.gets id = true ∧
      (wire.response a.reply.header ∈ s.link.frames ∨
        s.routine = .readingPayload a.reply.header ∧ a.reply.payload ∈ s.link.frames)

/-- Fetches are independent of each other. -/
structure Independent (wire : Wire) (s : AsyncConnector) : Prop where
  /-- A caller that was not told to stop ends with the object, cut to its own limit. -/
  received : ∀ g e id length outcome, s.calls.get? g = some e → e.call = .getObject id length →
    e.cancelRequested = false → e.phase = .done outcome →
      ∃ payload, outcome = .payload payload ∧ Received wire s.link.answers id length payload
  /-- No future is resolved twice by `routine`. -/
  routine : .invalidState ∉ s.errors
  /-- A caller that waits has a request under way. -/
  waiting : s.socket = true → ∀ g e id length, s.calls.get? g = some e → e.call = .getObject id length →
    (∀ outcome, e.phase ≠ .done outcome) →
      ∃ r, s.futures.get? e.future = some r ∧ (r.state = .pending → s.Coming wire id)
  /-- After a failure nobody waits, and a get for any object raises. -/
  failed : s.socket = false → (∀ f r, s.futures.get? f = some r → r.state ≠ .pending) ∧
    ∀ g id length, s.calls.get? g = none →
      ((s.step wire (.call g (.getObject id length))).calls.get? g).map (·.phase) =
        some (.done (.raised .closed))

theorem Arriving.coming (h : s.Arriving wire inflight) {a : Answer} (ha : a ∈ inflight) :
    wire.response a.reply.header ∈ s.link.frames ∨
      s.routine = .readingPayload a.reply.header ∧ a.reply.payload ∈ s.link.frames := by
  have hflat : ∀ rest : List Answer, a ∈ rest →
      wire.response a.reply.header ∈ rest.flatMap (·.reply.frames wire) := by
    intro rest hrest
    exact List.mem_flatMap.mpr ⟨a, hrest, List.mem_cons_self⟩
  unfold Arriving at h
  split at h
  · next response hr =>
    obtain ⟨b, rest, rfl, rfl, hframes⟩ := h
    rw [hframes]
    rcases List.mem_cons.mp ha with rfl | ha
    · exact .inr ⟨hr, List.mem_cons_self⟩
    · exact .inl (List.mem_cons_of_mem _ (hflat rest ha))
  · rw [h]
    exact .inl (hflat inflight ha)

theorem Live.coming (hl : s.Live wire [] inflight) {id : ObjectID} {f : CallerId}
    (hf : s.pendingGetRequests.get? id = some f) : s.Coming wire id := by
  obtain ⟨h, hmem, hg⟩ := hl.registered.live id f hf
  rw [List.nil_append, underWay] at hmem
  rcases List.mem_append.mp hmem with hmem | hmem
  · obtain ⟨t, ht, rfl⟩ := List.mem_map.mp hmem
    exact .inl ⟨t, ht, hg⟩
  · rcases List.mem_append.mp hmem with hmem | hmem
    · obtain ⟨q, hq, rfl⟩ := List.mem_map.mp hmem
      exact .inr (.inl ⟨q, hq, hg⟩)
    · obtain ⟨a, ha, rfl⟩ := List.mem_map.mp hmem
      exact .inr (.inr ⟨a, (hl.given a ha).1, hg, hl.arriving.coming ha⟩)

theorem Healthy.independent (h : s.Healthy wire []) : s.Independent wire where
  received g e id length outcome hg hc hr hd := (h.sound.gets g e id length hg hc).done outcome hd hr
  routine := h.sound.errors
  waiting hs g e id length hg hc _ := by
    obtain ⟨inflight, hl⟩ := h.live hs
    obtain ⟨r, hr, rfl, -⟩ := (h.sound.gets g e id length hg hc).future
    exact ⟨r, hr, fun hp => hl.coming ((h.sound.futures _ r hr).pending hp)⟩
  failed hd := by
    refine ⟨?_, ?_⟩
    · intro f r hf hp
      have hwaits := (h.sound.futures f r hf).pending hp
      rw [(h.dead hd).1] at hwaits
      cases hwaits
    · intro g id length hg
      simp [AsyncConnector.step, AsyncConnector.beginCall, AsyncConnector.sendRequest,
        AsyncConnector.setPhase, Dict.contains, hg, (h.dead hd).1, hd]

end AsyncConnector

open AsyncConnector

/-- Fetches stay independent in every run that is careful throughout. -/
theorem async_fetches_independent (wire : Wire) (identity : Identity) (held : ObjectMap)
    (events : List AsyncEvent)
    (hcareful : Throughout (AsyncConnector.step wire) Careful (AsyncConnector.start identity held) events) :
    (events.foldl (AsyncConnector.step wire) (AsyncConnector.start identity held)).Independent wire := by
  have hstep : ∀ (s : AsyncConnector) e, s.Healthy wire [] → s.Careful e → (s.step wire e).Healthy wire [] :=
    fun s e hs he => hs.step e he
  exact (Throughout.foldl hstep (start_healthy identity held) hcareful).independent

/-- Two callers share a fetch, a third object is stored and its caller gives up, the answers come
in the other order, and the connection breaks when all is done. -/
def exampleFetches : List AsyncEvent :=
  [.call 1 (.getObject ⟨1, 0, 0, 0⟩ 2), .call 2 (.getObject ⟨2, 0, 0, 0⟩ 8),
    .call 3 (.getObject ⟨1, 0, 0, 0⟩ 2), .call 4 (.setObject ⟨3, 0, 0, 0⟩ [30]), .sent, .acquire, .sent,
    .cancel 4, .routine, .serverAnswers 1 [], .receive, .receive, .serverAnswers 0 [], .routine, .receive,
    .receive, .wake 3, .wake 1, .wake 2, .routine, .receiveFailed]

theorem async_fetches_independent_shared :
    let s := exampleFetches.foldl (AsyncConnector.step capnpWire) (AsyncConnector.start "client" exampleHeld)
    [1, 2, 3, 4].map (fun g => (s.calls.get? g).map (·.phase)) =
      [some (.done (.payload [10, 11])), some (.done (.payload [20])), some (.done (.payload [10, 11])),
        some (.done .cancelled)] ∧ s.Independent capnpWire := by
  refine ⟨by decide +kernel, async_fetches_independent capnpWire "client" exampleHeld exampleFetches ?_⟩
  refine ⟨⟨rfl, ?_⟩, ⟨rfl, ?_⟩, ⟨rfl, ?_⟩, trivial, trivial, trivial, trivial, ⟨?_, ?_, ?_⟩, trivial, trivial, trivial,
    trivial, trivial, trivial, trivial, trivial, trivial, trivial, trivial, trivial, ?_, trivial⟩
  · rintro f r ⟨⟩
  · rintro f r ⟨⟩
  · rintro f r ⟨⟩ ⟨⟩
    rfl
  · decide +kernel
  · rintro t ⟨⟩
  · rintro e r ⟨⟩ ⟨⟩
  · intro id
    rfl

/-- The runs of the theorem below: a caller is cancelled, two ask for different lengths, and a
send fails. -/
def exampleCancelled : List AsyncEvent :=
  [.call 1 (.getObject ⟨1, 0, 0, 0⟩ 8), .sent, .call 2 (.getObject ⟨1, 0, 0, 0⟩ 8), .cancel 1, .wake 2]

def exampleLengths : List AsyncEvent :=
  [.call 1 (.getObject ⟨1, 0, 0, 0⟩ 8), .sent, .call 2 (.getObject ⟨1, 0, 0, 0⟩ 2), .serverAnswers 0 [],
    .routine, .receive, .receive, .wake 2]

def exampleSendFailed : List AsyncEvent := [.call 1 (.getObject ⟨1, 0, 0, 0⟩ 8), .sendFailed]

/-- The other caller is cancelled too, the second gets more than it asked for, and a future is
left that nobody resolves. -/
theorem async_fetches_depend :
    let run := fun events : List AsyncEvent =>
      events.foldl (AsyncConnector.step capnpWire) (AsyncConnector.start "client" exampleHeld)
    ¬(run exampleCancelled).Independent capnpWire ∧ ¬(run exampleLengths).Independent capnpWire ∧
      ¬(run exampleSendFailed).Independent capnpWire := by
  intro run
  refine ⟨fun h => ?_, fun h => ?_, fun h => ?_⟩
  · obtain ⟨payload, hp, -⟩ := h.received 2 ⟨.getObject ⟨1, 0, 0, 0⟩ 8, 1, .done .cancelled, false⟩ _ _ _
      (by decide +kernel) rfl rfl rfl
    cases hp
  · obtain ⟨payload, hp, a, ha, -, -, -, full, -, hcut⟩ := h.received 2
      ⟨.getObject ⟨1, 0, 0, 0⟩ 2, 1, .done (.payload [10, 11, 12]), false⟩ _ _ _ (by decide +kernel) rfl rfl rfl
    cases hp
    have hlen := congrArg List.length hcut
    rw [List.length_take] at hlen
    have hmin := Nat.min_le_left (2 : UInt64).toNat full.length
    rw [← hlen] at hmin
    exact absurd hmin (by decide)
  · have hfuture : (run exampleSendFailed).futures.get? 1 = some ⟨⟨1, 0, 0, 0⟩, 8, .pending⟩ := by decide +kernel
    exact (h.failed (by decide +kernel)).1 1 _ hfuture rfl

end Scaler.ObjectStorage
