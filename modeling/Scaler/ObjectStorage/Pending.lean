import Scaler.ObjectStorage.Contents
import Scaler.ObjectStorage.Server

/-! Requests wait under the object they need until it is there. Releasing them binds
further objects, whose waiting requests are released in turn. -/

namespace Scaler.ObjectStorage

open Collections

/-- The object a request needs; a `DUPLICATE` whose payload is no object id needs none. -/
def Request.waitsFor (objectIDFromBuffer : ObjectPayload → Option ObjectID) (request : Request) :
    Option ObjectID :=
  match request.header.requestType with
  | .getObject => some request.header.objectID
  | .duplicateObjectID => objectIDFromBuffer request.payload
  | _ => none

/-- A request within the memory limit, of the right length, that duplicates no object
onto itself. -/
def Request.Admissible (objectIDFromBuffer : ObjectPayload → Option ObjectID) (request : Request) :
    Prop :=
  match request.header.requestType with
  | .setObject => request.header.payloadLength.toNat ≤ memoryLimitInBytes
  | .duplicateObjectID => request.header.payloadLength.toNat = capnpObjectIDSize ∧
    objectIDFromBuffer request.payload ≠ some request.header.objectID
  | _ => True

/-- The handlers answer every request but these. -/
def Request.Answerable (objectIDFromBuffer : ObjectPayload → Option ObjectID) (request : Request) :
    Bool :=
  match request.header.requestType with
  | .duplicateObjectID => (objectIDFromBuffer request.payload).isSome
  | .unknown _ => false
  | _ => true

def ObjectRequestType.accepts : ObjectRequestType → ObjectResponseType → Bool
  | .setObject, .setOK => true
  | .getObject, .getOK => true
  | .deleteObject, .delOK => true
  | .deleteObject, .delNotExists => true
  | .duplicateObjectID, .duplicateOK => true
  | .infoGetTotal, .infoGetTotalOK => true
  | _, _ => false

/-- A response to the request `index`, sent to the client that made it. -/
structure Reply.Answers (reply : Reply) (client : Identity) (header : ObjectRequestHeader)
    (index : Nat) : Prop where
  client : reply.client = client
  index : reply.index = index
  objectID : reply.header.objectID = header.objectID
  responseID : reply.header.responseID = header.requestID
  responseType : header.requestType.accepts reply.header.responseType = true

namespace Server

variable (s : Server)

/-- How often the request `i` was answered. -/
def answers (i : Nat) : Nat := s.sent.countP fun reply => reply.index = i

/-- How often the request `i` is pending. -/
def waiting (i : Nat) : Nat := s.pendingRequests.sumValues fun rs => rs.countP fun r => r.index = i

/-- The request waits for the object, directly or through a chain of duplicates. -/
inductive Reaches : ObjectID → PendingRequest → Prop where
  | direct {id rs r} : s.pendingRequests.get? id = some rs → r ∈ rs → Reaches id r
  | through {id rs r x} : s.pendingRequests.get? id = some rs → r ∈ rs →
    r.requestHeader.requestType = .duplicateObjectID → Reaches r.requestHeader.objectID x → Reaches id x

end Server

section

variable {computePayloadHash : ObjectPayload → ObjectHash}
  {objectIDFromBuffer : ObjectPayload → Option ObjectID} {freed : ObjectHash}
  {payload : ObjectPayload} {s s' s'' : Server} {d d' d'' : ObjectMap} {id : ObjectID}
  {r : PendingRequest} {hand hand' : List PendingRequest}

def Quiet (s : Server) (d : ObjectMap) : Prop :=
  ∀ id, (d.get? id).isSome → s.pendingRequests.get? id = none

/-- Only `GET` and `DUPLICATE` wait, the latter not for the object they create. -/
def Sound (s : Server) : Prop :=
  ∀ id rs r, s.pendingRequests.get? id = some rs → r ∈ rs →
    r.requestHeader.requestType ≠ .getObject →
    r.requestHeader.requestType = .duplicateObjectID ∧ r.requestHeader.objectID ≠ id

def Taken (s s' : Server) (r : PendingRequest) : Prop :=
  ∃ id rs, s.pendingRequests.get? id = some rs ∧ r ∈ rs ∧ s'.pendingRequests.get? id = none

/-- A `GET` got the payload, any other request bound its object to it. -/
def Served (payload : ObjectPayload) (d : ObjectMap) (out : List Reply) (r : PendingRequest) : Prop :=
  if r.requestHeader.requestType = .getObject then r.getReply payload ∈ out
  else d.get? r.requestHeader.objectID = some payload

/-- From `s` to `s'` the requests in hand and those that left the map were served. -/
structure Released (computePayloadHash : ObjectPayload → ObjectHash) (payload : ObjectPayload)
    (hand : List PendingRequest) (s : Server) (d : ObjectMap) (s' : Server) (d' : ObjectMap) :
    Prop where
  holds : Holds computePayloadHash s'.objectManager d'
  bound : ∀ id, d'.get? id = d.get? id ∨ d'.get? id = some payload
  pending : ∀ id, s'.pendingRequests.get? id = s.pendingRequests.get? id ∨
    s'.pendingRequests.get? id = none
  sent : ∃ out, s'.sent = s.sent ++ out ∧
    (∀ reply ∈ out, ∃ r, (r ∈ hand ∨ Taken s s' r) ∧
      reply.Answers r.client r.requestHeader r.index) ∧
    ∀ r, r ∈ hand ∨ Taken s s' r → Served payload d' out r
  once : ∀ i, s'.answers i + s'.waiting i =
    s.answers i + s.waiting i + hand.countP fun r => r.index = i

theorem Served.mono {out out' : List Reply} (h : Served payload d out r)
    (hd : ∀ id, d'.get? id = d.get? id ∨ d'.get? id = some payload)
    (ho : ∀ reply ∈ out, reply ∈ out') : Served payload d' out' r := by
  unfold Served at h ⊢
  split
  · next hg =>
    rw [if_pos hg] at h
    exact ho _ h
  · next hg =>
    rw [if_neg hg] at h
    rcases hd r.requestHeader.objectID with he | he
    · exact he.trans h
    · exact he

theorem Served.request (hg : r.requestHeader.requestType ≠ .getObject)
    (hd : d.get? r.requestHeader.objectID = some payload) (out : List Reply) :
    Served payload d out r := by
  rw [Served, if_neg hg]
  exact hd

namespace Released

theorem refl (hh : Holds computePayloadHash s.objectManager d) :
    Released computePayloadHash payload [] s d s d := by
  have hn : ∀ r, r ∈ ([] : List PendingRequest) ∨ Taken s s r → False := by
    rintro r (hr | ⟨id, rs, hp, _, hn⟩)
    · cases hr
    · rw [hp] at hn
      cases hn
  refine ⟨hh, fun _ => .inl rfl, fun _ => .inl rfl, ⟨[], by simp, by simp, ?_⟩, fun i => by simp⟩
  exact fun r hr => (hn r hr).elim

theorem trans (h : Released computePayloadHash payload hand s d s' d')
    (h' : Released computePayloadHash payload hand' s' d' s'' d'') :
    Released computePayloadHash payload (hand ++ hand') s d s'' d'' := by
  have hfirst : ∀ {r}, Taken s s' r → Taken s s'' r := by
    rintro r ⟨id, rs, hp, hr, hn⟩
    rcases h'.pending id with he | he
    · exact ⟨id, rs, hp, hr, he.trans hn⟩
    · exact ⟨id, rs, hp, hr, he⟩
  have hsecond : ∀ {r}, Taken s' s'' r → Taken s s'' r := by
    rintro r ⟨id, rs, hp, hr, hn⟩
    rcases h.pending id with he | he
    · exact ⟨id, rs, he ▸ hp, hr, hn⟩
    · rw [he] at hp
      cases hp
  have hsplit : ∀ {r}, Taken s s'' r → Taken s s' r ∨ Taken s' s'' r := by
    rintro r ⟨id, rs, hp, hr, hn⟩
    rcases h.pending id with he | he
    · exact .inr ⟨id, rs, he.trans hp, hr, hn⟩
    · exact .inl ⟨id, rs, hp, hr, he⟩
  obtain ⟨out, hs, ha, hv⟩ := h.sent
  obtain ⟨out', hs', ha', hv'⟩ := h'.sent
  refine ⟨h'.holds, fun id => ?_, fun id => ?_, ⟨out ++ out', ?_, ?_, ?_⟩, fun i => ?_⟩
  · rcases h'.bound id with he | he
    · rw [he]
      exact h.bound id
    · exact .inr he
  · rcases h'.pending id with he | he
    · rw [he]
      exact h.pending id
    · exact .inr he
  · rw [hs', hs, List.append_assoc]
  · intro reply hr
    rcases List.mem_append.mp hr with hr | hr
    · obtain ⟨r, hm, hx⟩ := ha reply hr
      exact ⟨r, hm.imp (List.mem_append_left _) hfirst, hx⟩
    · obtain ⟨r, hm, hx⟩ := ha' reply hr
      exact ⟨r, hm.imp (List.mem_append_right _) hsecond, hx⟩
  · have hold : ∀ r, r ∈ hand ∨ Taken s s' r → Served payload d'' (out ++ out') r := fun r hr =>
      (hv r hr).mono h'.bound fun _ => List.mem_append_left _
    have hnew : ∀ r, r ∈ hand' ∨ Taken s' s'' r → Served payload d'' (out ++ out') r := fun r hr =>
      (hv' r hr).mono (fun _ => .inl rfl) fun _ => List.mem_append_right _
    rintro r (hr | hr)
    · rcases List.mem_append.mp hr with hr | hr
      · exact hold r (.inl hr)
      · exact hnew r (.inl hr)
    · rcases hsplit hr with hr | hr
      · exact hold r (.inr hr)
      · exact hnew r (.inr hr)
  · rw [h'.once i, h.once i, List.countP_append]
    omega

/-- One request is answered, and perhaps its object is bound. -/
theorem answer {reply : Reply} {m : ObjectManager} (hh : Holds computePayloadHash m d')
    (hd : ∀ id, d'.get? id = d.get? id ∨ d'.get? id = some payload)
    (ha : reply.Answers r.client r.requestHeader r.index) (hv : Served payload d' [reply] r) :
    Released computePayloadHash payload [r] s d ({ s with objectManager := m }.writeMessage reply) d' := by
  have hn : ∀ {x}, Taken s ({ s with objectManager := m }.writeMessage reply) x → False := by
    rintro x ⟨id, rs, hp, _, hn⟩
    exact Option.some_ne_none rs (hp.symm.trans hn)
  refine ⟨hh, hd, fun _ => .inl rfl, ⟨[reply], rfl, ?_, ?_⟩, fun i => ?_⟩
  · intro x hx
    rw [List.mem_singleton.mp hx]
    exact ⟨r, .inl (List.mem_singleton_self r), ha⟩
  · rintro x (hx | hx)
    · rw [List.mem_singleton.mp hx]
      exact hv
    · exact (hn hx).elim
  · simp only [Server.answers, Server.waiting, Server.writeMessage, List.countP_append,
      List.countP_singleton, ha.index]
    omega

/-- The object was bound just before. -/
theorem bind_set {m : ObjectManager} {d₀ : ObjectMap}
    (hd : ∀ id, d.get? id = d₀.get? id ∨ d.get? id = some payload)
    (h : Released computePayloadHash payload hand { s with objectManager := m } d s' d') :
    Released computePayloadHash payload hand s d₀ s' d' := by
  refine ⟨h.holds, fun id => ?_, h.pending, h.sent, h.once⟩
  rcases h.bound id with he | he
  · rw [he]
    exact hd id
  · exact .inr he

variable (id) in
/-- The requests under the id are in hand once it left the map. -/
theorem reinstate
    (h : Released computePayloadHash payload ((s.pendingRequests.get? id).getD [])
      { s with pendingRequests := s.pendingRequests.erase id } d s' d') :
    Released computePayloadHash payload [] s d s' d' := by
  have hnone : s'.pendingRequests.get? id = none := by
    rcases h.pending id with he | he
    · rw [he]
      exact Dict.get?_erase_self _ _
    · exact he
  have htaken : ∀ r, r ∈ ([] : List PendingRequest) ∨ Taken s s' r ↔
      r ∈ (s.pendingRequests.get? id).getD [] ∨
        Taken { s with pendingRequests := s.pendingRequests.erase id } s' r := by
    intro r
    constructor
    · rintro (hr | ⟨j, rs, hp, hr, hn⟩)
      · cases hr
      · by_cases hj : j = id
        · subst hj
          rw [hp]
          exact .inl hr
        · exact .inr ⟨j, rs, (Dict.get?_erase_ne _ hj).trans hp, hr, hn⟩
    · rintro (hr | ⟨j, rs, hp, hr, hn⟩)
      · cases hp : s.pendingRequests.get? id with
        | none => simp [hp] at hr
        | some rs =>
          rw [hp] at hr
          exact .inr ⟨id, rs, hp, hr, hnone⟩
      · by_cases hj : j = id
        · subst hj
          rw [show _ = none from Dict.get?_erase_self _ _] at hp
          cases hp
        · exact .inr ⟨j, rs, (Dict.get?_erase_ne _ hj).symm.trans hp, hr, hn⟩
  refine ⟨h.holds, h.bound, fun j => ?_, ?_, fun i => ?_⟩
  · by_cases hj : j = id
    · exact .inr (hj ▸ hnone)
    · rw [← Dict.get?_erase_ne s.pendingRequests hj]
      exact h.pending j
  · obtain ⟨out, hs, ha, hv⟩ := h.sent
    refine ⟨out, hs, fun reply hr => ?_, fun r hr => hv r ((htaken r).mp hr)⟩
    obtain ⟨r, hm, hx⟩ := ha reply hr
    exact ⟨r, (htaken r).mpr hm, hx⟩
  · have hi := h.once i
    cases hp : s.pendingRequests.get? id with
    | none => simpa [hp, Dict.erase_of_get?_none hp] using hi
    | some rs =>
      have he := s.pendingRequests.sumValues_erase (fun rs => rs.countP fun r => r.index = i) hp
      rw [hp] at hi
      simp only [Server.answers, Server.waiting, Option.getD_some, List.countP_nil] at hi ⊢
      omega

theorem keys_le (h : Released computePayloadHash payload hand s d s' d') :
    s'.pendingRequests.keys.length ≤ s.pendingRequests.keys.length := by
  refine Dict.length_keys_le fun id hi => ?_
  rcases h.pending id with he | he
  · rw [← he]
    exact hi
  · rw [he] at hi
    cases hi

theorem sound (h : Released computePayloadHash payload hand s d s' d') (hs : Sound s) : Sound s' := by
  intro id rs r hp
  rcases h.pending id with he | he
  · exact hs id rs r (he ▸ hp)
  · rw [he] at hp
    cases hp

theorem keeps (h : Released computePayloadHash payload hand s d s' d')
    (hd : d.get? id = some payload) : d'.get? id = some payload := by
  rcases h.bound id with he | he
  · exact he.trans hd
  · exact he

end Released

variable (payload) in
theorem PendingRequest.getReply_answers (hg : r.requestHeader.requestType = .getObject) :
    (r.getReply payload).Answers r.client r.requestHeader r.index :=
  ⟨rfl, rfl, rfl, rfl, by rw [hg]; rfl⟩

theorem PendingRequest.duplicateReply_answers
    (hg : r.requestHeader.requestType = .duplicateObjectID) :
    r.duplicateReply.Answers r.client r.requestHeader r.index :=
  ⟨rfl, rfl, rfl, rfl, by rw [hg]; rfl⟩

theorem ObjectMap.set_bound (d : ObjectMap) (id : ObjectID) (payload : ObjectPayload) (j : ObjectID) :
    (d.set id payload).get? j = d.get? j ∨ (d.set id payload).get? j = some payload := by
  rw [Dict.get?_set]
  split
  · exact .inr rfl
  · exact .inl rfl

theorem Quiet.set (hq : Quiet s d) (id : ObjectID) (payload : ObjectPayload) :
    Quiet { s with pendingRequests := s.pendingRequests.erase id } (d.set id payload) := by
  intro j hj
  change (s.pendingRequests.erase id).get? j = none
  rw [Dict.get?_erase]
  split
  · rfl
  · next hne =>
    rw [Dict.get?_set_ne _ hne] at hj
    exact hq j hj

variable (freed) in
/-- The loop over the requests that waited for the object, when releasing an object with
fewer pending ids is known to work. -/
theorem released_foldlM {release : ObjectID → Server → Option Server} {n : Nat}
    (ih : ∀ s d id, s.pendingRequests.keys.length ≤ n → Holds computePayloadHash s.objectManager d →
      Sound s → Quiet { s with pendingRequests := s.pendingRequests.erase id } d →
      d.get? id = some payload → ∃ s' d', release id s = some s' ∧ Quiet s' d' ∧
        Released computePayloadHash payload [] s d s' d')
    (hand : List PendingRequest) (s : Server) (d : ObjectMap)
    (hn : s.pendingRequests.keys.length ≤ n) (hh : Holds computePayloadHash s.objectManager d)
    (hs : Sound s) (hq : Quiet s d) (hd : d.get? id = some payload)
    (hr : ∀ r ∈ hand, r.requestHeader.requestType ≠ .getObject →
      r.requestHeader.requestType = .duplicateObjectID ∧ r.requestHeader.objectID ≠ id) :
    ∃ s' d', hand.foldlM (fun s r =>
        if r.requestHeader.requestType = .getObject then s.sendGetResponse r (some payload)
        else do
          let m ← s.objectManager.duplicateObject freed id r.requestHeader.objectID
          release r.requestHeader.objectID ({ s with objectManager := m.2 }.sendDuplicateResponse r)) s =
        some s' ∧ Quiet s' d' ∧ Released computePayloadHash payload hand s d s' d' := by
  induction hand generalizing s d with
  | nil => exact ⟨s, d, rfl, hq, .refl hh⟩
  | cons r hand ihl =>
    have hrest := fun x hx => hr x (List.mem_cons_of_mem _ hx)
    by_cases hg : r.requestHeader.requestType = .getObject
    · have h1 := Released.answer (s := s) hh (fun _ => .inl rfl)
        (PendingRequest.getReply_answers payload hg)
        (by rw [Served, if_pos hg]; exact List.mem_singleton_self _)
      obtain ⟨s', d', he, hq', h2⟩ := ihl (s.writeMessage (r.getReply payload)) d hn hh (h1.sound hs) hq hd hrest
      refine ⟨s', d', ?_, hq', h1.trans h2⟩
      rw [List.foldlM_cons, if_pos hg]
      exact he
    · obtain ⟨ht, hne⟩ := hr r List.mem_cons_self hg
      obtain ⟨m, hm, hh1⟩ := hh.duplicateObject id r.requestHeader.objectID
        (fun he => absurd he hne)
      simp only [ObjectMap.step, hd] at hm hh1
      have h1 := Released.answer (s := s) hh1 (d.set_bound _ payload)
        (PendingRequest.duplicateReply_answers ht)
        (Served.request hg (Dict.get?_set_self _ _ _) _)
      obtain ⟨s1, d1, he1, hq1, h2⟩ := ih ({ s with objectManager := m }.sendDuplicateResponse r)
        _ r.requestHeader.objectID hn hh1 (h1.sound hs) (hq.set _ payload) (Dict.get?_set_self _ _ _)
      have h12 := h1.trans h2
      obtain ⟨s', d', he, hq', h3⟩ := ihl s1 d1 (Nat.le_trans h12.keys_le hn) h12.holds (h12.sound hs) hq1
        (h12.keeps hd) hrest
      refine ⟨s', d', ?_, hq', h12.trans h3⟩
      rw [List.foldlM_cons, if_neg hg, hm freed]
      change (release _ _).bind _ = _
      rw [show release _ _ = some s1 from he1]
      exact he

theorem optionallySendPendingRequests_spec (n : Nat) (s : Server) (d : ObjectMap) (id : ObjectID)
    (hn : s.pendingRequests.keys.length ≤ n) (hh : Holds computePayloadHash s.objectManager d)
    (hs : Sound s) (hq : Quiet { s with pendingRequests := s.pendingRequests.erase id } d)
    (hd : d.get? id = some payload) :
    ∃ s' d', Server.optionallySendPendingRequests freed n id (some payload) s = some s' ∧
      Quiet s' d' ∧ Released computePayloadHash payload [] s d s' d' := by
  induction n generalizing s d id with
  | zero =>
    have hp : s.pendingRequests.get? id = none := by
      by_contra hp
      have hm := (s.pendingRequests.mem_keys id).mpr (Option.isSome_iff_ne_none.mpr hp)
      rw [List.length_eq_zero_iff.mp (Nat.le_zero.mp hn)] at hm
      cases hm
    rw [Dict.erase_of_get?_none hp] at hq
    exact ⟨s, d, rfl, hq, .refl hh⟩
  | succ n ih =>
    cases hp : s.pendingRequests.get? id with
    | none =>
      rw [Dict.erase_of_get?_none hp] at hq
      exact ⟨s, d, by rw [Server.optionallySendPendingRequests, hp], hq, .refl hh⟩
    | some rs =>
      have hlen : (s.pendingRequests.erase id).keys.length ≤ n := by
        have := s.pendingRequests.length_keys_erase hp
        omega
      have hsound : Sound { s with pendingRequests := s.pendingRequests.erase id } := by
        intro j rs r hj
        by_cases hji : j = id
        · subst hji
          rw [show _ = none from Dict.get?_erase_self _ _] at hj
          cases hj
        · exact hs j rs r ((Dict.get?_erase_ne _ hji).symm.trans hj)
      obtain ⟨s', d', he, hq', h⟩ := released_foldlM freed (fun s d id => ih s d id) rs
        { s with pendingRequests := s.pendingRequests.erase id } d hlen hh hsound hq hd
        (fun r hr => hs id rs r hp hr)
      refine ⟨s', d', ?_, hq', Released.reinstate id (by rw [hp]; exact h)⟩
      rw [Server.optionallySendPendingRequests, hp]
      exact he

variable (freed) in
theorem sendPendingRequests_spec {s : Server} (hh : Holds computePayloadHash s.objectManager d)
    (hs : Sound s) (hq : Quiet { s with pendingRequests := s.pendingRequests.erase id } d)
    (hd : d.get? id = some payload) :
    ∃ s' d', s.sendPendingRequests freed id (some payload) = some s' ∧
      Quiet s' d' ∧ Released computePayloadHash payload [] s d s' d' :=
  optionallySendPendingRequests_spec _ s d id (Nat.le_refl _) hh hs hq hd

/-- Whoever waits for an object that was bound by the release has been answered. -/
theorem Released.reached {out : List Reply} {x : PendingRequest} (hs : s'.sent = s.sent ++ out)
    (hq : Quiet s' d') (h : Released computePayloadHash payload hand s d s' d')
    (hd : d'.get? id = some payload) (hx : s.Reaches id x)
    (hg : x.requestHeader.requestType = .getObject) : x.getReply payload ∈ out := by
  obtain ⟨out', hs', _, hv⟩ := h.sent
  obtain rfl : out = out' := List.append_cancel_left (hs.symm.trans hs')
  have hgone : ∀ {j}, d'.get? j = some payload → s'.pendingRequests.get? j = none := fun hj =>
    hq _ (by rw [hj]; rfl)
  induction hx with
  | direct hp hr =>
    have hx := hv _ (.inr ⟨_, _, hp, hr, hgone hd⟩)
    rw [Served, if_pos hg] at hx
    exact hx
  | through hp hr ht _ ih =>
    have hx := hv _ (.inr ⟨_, _, hp, hr, hgone hd⟩)
    rw [Served, if_neg (by rw [ht]; exact ObjectRequestType.noConfusion)] at hx
    exact ih hx hg

/-- What handling one request, in hand as `r`, does. -/
structure Handled (computePayloadHash : ObjectPayload → ObjectHash) (request : Request)
    (objectIDFromBuffer : ObjectPayload → Option ObjectID) (r : PendingRequest)
    (s : Server) (d : ObjectMap) (s' : Server) (d' : ObjectMap) : Prop where
  holds : Holds computePayloadHash s'.objectManager d'
  quiet : Quiet s' d'
  pending : ∀ {id rs x}, s'.pendingRequests.get? id = some rs → x ∈ rs →
    (∃ rs', s.pendingRequests.get? id = some rs' ∧ x ∈ rs') ∨
      x = r ∧ request.waitsFor objectIDFromBuffer = some id
  sent : ∃ out, s'.sent = s.sent ++ out ∧
    (∀ reply ∈ out, ∃ x, (x = r ∨ ∃ id rs, s.pendingRequests.get? id = some rs ∧ x ∈ rs) ∧
      reply.Answers x.client x.requestHeader x.index) ∧
    ∀ id payload x, d.get? id = none → d'.get? id = some payload → s.Reaches id x →
      x.requestHeader.requestType = .getObject → x.getReply payload ∈ out
  once : ∀ i, s'.answers i + s'.waiting i =
    s.answers i + s.waiting i + if request.Answerable objectIDFromBuffer ∧ r.index = i then 1 else 0

namespace Handled

variable {request : Request}

theorem of_released (hq : Quiet s' d') (ha : request.Answerable objectIDFromBuffer = true)
    (h : Released computePayloadHash payload [r] s d s' d') :
    Handled computePayloadHash request objectIDFromBuffer r s d s' d' := by
  obtain ⟨out, hs, hx, hv⟩ := h.sent
  refine ⟨h.holds, hq, fun {id rs x} hp hr => ?_, ⟨out, hs, fun reply hr => ?_, ?_⟩, fun i => ?_⟩
  · rcases h.pending id with he | he
    · exact .inl ⟨rs, he ▸ hp, hr⟩
    · rw [he] at hp
      cases hp
  · obtain ⟨x, hm, hy⟩ := hx reply hr
    refine ⟨x, ?_, hy⟩
    rcases hm with hm | ⟨id, rs, hp, hr, _⟩
    · exact .inl (List.mem_singleton.mp hm)
    · exact .inr ⟨id, rs, hp, hr⟩
  · intro id p x hn hp hr hg
    have he : d'.get? id = some payload := by
      rcases h.bound id with he | he
      · rw [he, hn] at hp
        cases hp
      · exact he
    cases he.symm.trans hp
    exact h.reached hs hq he hr hg
  · rw [h.once i, List.countP_singleton]
    simp [ha]

/-- An object is bound, those who wait for it are released, and then the request that
bound it is answered. -/
theorem of_release {reply : Reply} {m : ObjectManager} (hq : Quiet s' d')
    (h : Released computePayloadHash payload [] { s with objectManager := m }
      (d.set r.requestHeader.objectID payload) s' d')
    (ha : request.Answerable objectIDFromBuffer = true)
    (hr : reply.Answers r.client r.requestHeader r.index)
    (hg : r.requestHeader.requestType ≠ .getObject) :
    Handled computePayloadHash request objectIDFromBuffer r s d (s'.writeMessage reply) d' := by
  have h1 := h.bind_set (d.set_bound r.requestHeader.objectID payload)
  have h2 := Released.answer (s := s') (m := s'.objectManager) h.holds (fun _ => .inl rfl) hr
    (Served.request hg (h.keeps (Dict.get?_set_self _ _ _)) _)
  have hq : Quiet (s'.writeMessage reply) d' := hq
  exact of_released hq ha (h1.trans h2)

/-- A request that leaves the map alone and makes no object available. -/
theorem of_reply {reply : Reply} {m : ObjectManager} (hh : Holds computePayloadHash m d')
    (hd : ∀ id, (d'.get? id).isSome → (d.get? id).isSome) (hq : Quiet s d)
    (ha : request.Answerable objectIDFromBuffer = true)
    (hr : reply.Answers r.client r.requestHeader r.index) :
    Handled computePayloadHash request objectIDFromBuffer r s d
      ({ s with objectManager := m }.writeMessage reply) d' := by
  refine ⟨hh, fun id hi => hq id (hd id hi), fun {_ rs x} hp hx => .inl ⟨rs, hp, hx⟩,
    ⟨[reply], rfl, ?_, ?_⟩, fun i => ?_⟩
  · intro x hx
    rw [List.mem_singleton.mp hx]
    exact ⟨r, .inl rfl, hr⟩
  · intro id p x hn hp
    have hs := hd id (by rw [hp]; rfl)
    rw [hn] at hs
    cases hs
  · simp only [Server.answers, Server.waiting, Server.writeMessage, List.countP_append,
      List.countP_singleton, hr.index, ha, true_and, decide_eq_true_eq]
    omega

theorem of_pending {m : ObjectManager} (hh : Holds computePayloadHash m d) (hq : Quiet s d)
    (ha : request.Answerable objectIDFromBuffer = true)
    (hw : request.waitsFor objectIDFromBuffer = some id) (hd : d.get? id = none) :
    Handled computePayloadHash request objectIDFromBuffer r s d
      ({ s with objectManager := m }.addPending id r) d := by
  refine ⟨hh, fun j hj => ?_, fun {j rs x} hp hx => ?_, ⟨[], by simp [Server.addPending], by simp, ?_⟩,
    fun i => ?_⟩
  · have hne : j ≠ id := by
      rintro rfl
      rw [hd] at hj
      cases hj
    exact (Dict.get?_set_ne _ hne _).trans (hq j hj)
  · by_cases hj : j = id
    · subst hj
      obtain rfl := Option.some.inj ((Dict.get?_set_self _ _ _).symm.trans hp)
      rcases List.mem_append.mp hx with hx | hx
      · cases hs : s.pendingRequests.get? j with
        | none => simp [hs] at hx
        | some rs =>
          rw [hs] at hx
          exact .inl ⟨rs, rfl, hx⟩
      · exact .inr ⟨List.mem_singleton.mp hx, hw⟩
    · exact .inl ⟨rs, (Dict.get?_set_ne _ hj _).symm.trans hp, hx⟩
  · intro j p x hn hp
    rw [hn] at hp
    cases hp
  · let f : List PendingRequest → Nat := fun rs => rs.countP fun r => r.index = i
    cases hs : s.pendingRequests.get? id with
    | none =>
      have he := s.pendingRequests.sumValues_set_absent (v := [r]) f hs
      simp only [Server.answers, Server.waiting, Server.addPending, hs, Option.getD_none,
        List.nil_append, ha, true_and]
      rw [he]
      simp only [f, List.countP_singleton, decide_eq_true_eq]
      omega
    | some rs =>
      have he := s.pendingRequests.sumValues_set_present (v := rs ++ [r]) f hs
      simp only [f, List.countP_append, List.countP_singleton, decide_eq_true_eq] at he
      simp only [Server.answers, Server.waiting, Server.addPending, hs, Option.getD_some, ha, true_and]
      omega

/-- The handler threw before it changed anything, or there is no handler. -/
theorem of_ignored (hh : Holds computePayloadHash s.objectManager d) (hq : Quiet s d)
    (ha : request.Answerable objectIDFromBuffer = false) :
    Handled computePayloadHash request objectIDFromBuffer r s d s d := by
  refine ⟨hh, hq, fun {_ rs x} hp hx => .inl ⟨rs, hp, hx⟩, ⟨[], by simp, by simp, ?_⟩, fun i => by simp [ha]⟩
  intro j p x hn hp
  rw [hn] at hp
  cases hp

end Handled

section

variable {request : Request} {index : Nat}

theorem processSetRequest_spec (hh : Holds computePayloadHash s.objectManager d) (hq : Quiet s d)
    (hs : Sound s) (ht : request.header.requestType = .setObject)
    (hl : request.header.payloadLength.toNat ≤ memoryLimitInBytes) :
    ∃ s' d', s.processSetRequest computePayloadHash freed ⟨request.client, request.header, index⟩
        request.payload = some s' ∧
      Handled computePayloadHash request objectIDFromBuffer ⟨request.client, request.header, index⟩
        s d s' d' := by
  obtain ⟨stored, m, he, hm, _, _⟩ := hh.setObject request.header.objectID request.payload
  obtain ⟨s1, d1, he1, hq1, h1⟩ := sendPendingRequests_spec freed
    (s := { s with objectManager := m }) hm hs (hq.set _ stored) (Dict.get?_set_self _ _ _)
  refine ⟨s1.writeHeader ⟨request.client, request.header, index⟩ .setOK, d1, ?_,
    Handled.of_release hq1 h1 (by simp [Request.Answerable, ht])
      ⟨rfl, rfl, rfl, rfl, by rw [ht]; rfl⟩ (by rw [ht]; exact ObjectRequestType.noConfusion)⟩
  simp only [Server.processSetRequest, if_neg (Nat.not_lt.mpr hl), he, Option.bind_eq_bind,
    Option.bind_some, he1]

theorem processGetRequest_spec (hh : Holds computePayloadHash s.objectManager d) (hq : Quiet s d)
    (ht : request.header.requestType = .getObject) :
    ∃ s' d', s.processGetRequest ⟨request.client, request.header, index⟩ = some s' ∧
      Handled computePayloadHash request objectIDFromBuffer ⟨request.client, request.header, index⟩
        s d s' d' := by
  have ha : request.Answerable objectIDFromBuffer = true := by simp [Request.Answerable, ht]
  have hget := hh.get request.header.objectID
  cases hp : d.get? request.header.objectID with
  | none =>
    refine ⟨_, d, ?_, Handled.of_pending (m := s.objectManager) hh hq ha
      (by simp [Request.waitsFor, ht]) hp⟩
    simp [Server.processGetRequest, hget, hp]
  | some payload =>
    refine ⟨_, d, ?_, Handled.of_reply (m := s.objectManager) hh (fun _ => id) hq ha
      (PendingRequest.getReply_answers payload ht)⟩
    simp [Server.processGetRequest, Server.sendGetResponse, hget, hp]

theorem processDeleteRequest_spec (hh : Holds computePayloadHash s.objectManager d) (hq : Quiet s d)
    (ht : request.header.requestType = .deleteObject) :
    ∃ s' d', s.processDeleteRequest ⟨request.client, request.header, index⟩ = some s' ∧
      Handled computePayloadHash request objectIDFromBuffer ⟨request.client, request.header, index⟩
        s d s' d' := by
  obtain ⟨m, he, hm⟩ := hh.deleteObject request.header.objectID
  have hless : ∀ id, ((d.erase request.header.objectID).get? id).isSome → (d.get? id).isSome := by
    intro id hi
    rw [Dict.get?_erase] at hi
    split at hi
    · cases hi
    · exact hi
  have hr : ∀ type, request.header.requestType.accepts type = true → Reply.Answers
      ⟨request.client, ⟨request.header.objectID, 0, request.header.requestID, type⟩, [], index⟩
      request.client request.header index := fun type h => ⟨rfl, rfl, rfl, rfl, h⟩
  refine ⟨_, _, ?_, Handled.of_reply hm hless hq (by simp [Request.Answerable, ht])
    (hr (if (d.get? request.header.objectID).isSome then .delOK else .delNotExists) ?_)⟩
  · simp [Server.processDeleteRequest, he, Server.writeHeader]
  · rw [ht]
    split <;> rfl

theorem processDuplicateRequest_spec (hh : Holds computePayloadHash s.objectManager d)
    (hq : Quiet s d) (hs : Sound s) (ht : request.header.requestType = .duplicateObjectID)
    (hl : request.header.payloadLength.toNat = capnpObjectIDSize)
    (hne : objectIDFromBuffer request.payload ≠ some request.header.objectID) :
    ∃ s' d', s.processDuplicateRequest objectIDFromBuffer freed
        ⟨request.client, request.header, index⟩ request.payload = some s' ∧
      Handled computePayloadHash request objectIDFromBuffer ⟨request.client, request.header, index⟩
        s d s' d' := by
  cases ho : objectIDFromBuffer request.payload with
  | none =>
    refine ⟨s, d, ?_, Handled.of_ignored hh hq (by simp [Request.Answerable, ht, ho])⟩
    simp [Server.processDuplicateRequest, hl, ho]
  | some original =>
    have ha : request.Answerable objectIDFromBuffer = true := by simp [Request.Answerable, ht, ho]
    obtain ⟨m, he, hm⟩ := hh.duplicateObject original request.header.objectID
      (fun h => absurd (ho.trans (h ▸ rfl)) hne)
    cases hp : d.get? original with
    | none =>
      simp only [ObjectMap.step, hp] at hm he
      refine ⟨_, d, ?_, Handled.of_pending hm hq ha (by simp [Request.waitsFor, ht, ho]) hp⟩
      simp [Server.processDuplicateRequest, hl, ho, he]
    | some payload =>
      simp only [ObjectMap.step, hp] at hm he
      obtain ⟨s1, d1, he1, hq1, h1⟩ := sendPendingRequests_spec freed
        (s := { s with objectManager := m }) hm hs (hq.set _ payload) (Dict.get?_set_self _ _ _)
      refine ⟨s1.sendDuplicateResponse ⟨request.client, request.header, index⟩, d1, ?_,
        Handled.of_release hq1 h1 ha (PendingRequest.duplicateReply_answers ht)
          (by rw [ht]; exact ObjectRequestType.noConfusion)⟩
      simp [Server.processDuplicateRequest, hl, ho, he, he1]

variable (freed) (index) in
theorem process_spec (hh : Holds computePayloadHash s.objectManager d) (hq : Quiet s d)
    (hs : Sound s) (ha : request.Admissible objectIDFromBuffer) :
    ∃ s' d', s.process computePayloadHash objectIDFromBuffer freed index request = some s' ∧
      Handled computePayloadHash request objectIDFromBuffer ⟨request.client, request.header, index⟩
        s d s' d' := by
  unfold Request.Admissible at ha
  unfold Server.process
  cases ht : request.header.requestType with
  | setObject =>
    rw [ht] at ha
    exact processSetRequest_spec hh hq hs ht ha
  | getObject => exact processGetRequest_spec hh hq ht
  | deleteObject => exact processDeleteRequest_spec hh hq ht
  | duplicateObjectID =>
    rw [ht] at ha
    exact processDuplicateRequest_spec hh hq hs ht ha.1 ha.2
  | infoGetTotal =>
    exact ⟨_, d, rfl, Handled.of_reply (m := s.objectManager) hh (fun _ => id) hq
      (by simp [Request.Answerable, ht]) ⟨rfl, rfl, rfl, rfl, by rw [ht]; rfl⟩⟩
  | unknown value =>
    exact ⟨s, d, rfl, Handled.of_ignored hh hq (by simp [Request.Answerable, ht])⟩

end

/-- The state of the server after the requests. -/
structure Tracked (computePayloadHash : ObjectPayload → ObjectHash)
    (objectIDFromBuffer : ObjectPayload → Option ObjectID) (requests : List Request) (s : Server)
    (d : ObjectMap) : Prop where
  holds : Holds computePayloadHash s.objectManager d
  quiet : Quiet s d
  waiting : ∀ {id rs r}, s.pendingRequests.get? id = some rs → r ∈ rs → ∃ request,
    requests[r.index]? = some request ∧ request.client = r.client ∧ request.header = r.requestHeader ∧
      request.Admissible objectIDFromBuffer ∧ request.waitsFor objectIDFromBuffer = some id
  answered : ∀ reply ∈ s.sent, ∃ request, requests[reply.index]? = some request ∧
    reply.Answers request.client request.header reply.index
  once : ∀ i, s.answers i + s.waiting i =
    if (requests[i]?).any (Request.Answerable objectIDFromBuffer) then 1 else 0

namespace Tracked

variable {requests : List Request} {request : Request}

theorem empty : Tracked computePayloadHash objectIDFromBuffer [] .empty Dict.empty := by
  refine ⟨.empty, fun _ _ => rfl, fun h => ?_, fun _ h => ?_, fun _ => rfl⟩
  · simp [Server.empty] at h
  · simp [Server.empty] at h

theorem sound (h : Tracked computePayloadHash objectIDFromBuffer requests s d) : Sound s := by
  intro id rs r hp hr hg
  obtain ⟨request, _, _, hx, ha, hw⟩ := h.waiting hp hr
  rw [← hx] at hg ⊢
  unfold Request.waitsFor at hw
  unfold Request.Admissible at ha
  cases ht : request.header.requestType with
  | getObject => exact absurd ht hg
  | duplicateObjectID =>
    rw [ht] at ha hw
    refine ⟨rfl, fun he => ha.2 ?_⟩
    rw [he]
    exact hw
  | _ =>
    rw [ht] at hw
    cases hw

theorem getElem?_append_of_some {i : Nat} {x : Request} (h : requests[i]? = some x) :
    (requests ++ [request])[i]? = some x := by
  obtain ⟨hi, _⟩ := List.getElem?_eq_some_iff.mp h
  rw [List.getElem?_append_left hi]
  exact h

theorem handled (h : Tracked computePayloadHash objectIDFromBuffer requests s d)
    (ha : request.Admissible objectIDFromBuffer)
    (hr : Handled computePayloadHash request objectIDFromBuffer
      ⟨request.client, request.header, requests.length⟩ s d s' d') :
    Tracked computePayloadHash objectIDFromBuffer (requests ++ [request]) s' d' := by
  obtain ⟨out, hs, hx, _⟩ := hr.sent
  have hlast : (requests ++ [request])[requests.length]? = some request := by simp
  refine ⟨hr.holds, hr.quiet, fun hp hm => ?_, fun reply hm => ?_, fun i => ?_⟩
  · rcases hr.pending hp hm with ⟨rs', hp, hm⟩ | ⟨rfl, hw⟩
    · obtain ⟨x, hi, hx⟩ := h.waiting hp hm
      exact ⟨x, getElem?_append_of_some hi, hx⟩
    · exact ⟨request, hlast, rfl, rfl, ha, hw⟩
  · rw [hs] at hm
    rcases List.mem_append.mp hm with hm | hm
    · obtain ⟨x, hi, hx⟩ := h.answered reply hm
      exact ⟨x, getElem?_append_of_some hi, hx⟩
    · obtain ⟨x, rfl | ⟨id, rs, hp, hm⟩, hy⟩ := hx reply hm
      · rw [hy.index]
        exact ⟨request, hlast, hy⟩
      · obtain ⟨y, hi, hc, hh, _⟩ := h.waiting hp hm
        rw [hy.index]
        exact ⟨y, getElem?_append_of_some hi, by rw [hc, hh]; exact hy⟩
  · rw [hr.once i, h.once i]
    rcases Nat.lt_trichotomy i requests.length with hi | rfl | hi
    · rw [List.getElem?_append_left hi]
      have hne : ¬(request.Answerable objectIDFromBuffer = true ∧ requests.length = i) := by omega
      simp only [hne, if_false, Nat.add_zero]
    · simp
    · have hne : ¬(request.Answerable objectIDFromBuffer = true ∧ requests.length = i) := by omega
      have hout : (requests ++ [request])[i]? = none := by
        rw [List.getElem?_eq_none_iff, List.length_append, List.length_singleton]
        omega
      rw [hout, List.getElem?_eq_none (Nat.le_of_lt hi)]
      simp [hne]

variable (freed) in
theorem run (h : Tracked computePayloadHash objectIDFromBuffer requests s d) {rest : List Request}
    (ha : ∀ request ∈ rest, request.Admissible objectIDFromBuffer) :
    ∃ s' d', Server.run computePayloadHash objectIDFromBuffer freed requests.length s rest = some s' ∧
      Tracked computePayloadHash objectIDFromBuffer (requests ++ rest) s' d' := by
  induction rest generalizing requests s d with
  | nil => exact ⟨s, d, rfl, by simpa using h⟩
  | cons request rest ih =>
    have hr := ha request List.mem_cons_self
    obtain ⟨s1, d1, he, h1⟩ := process_spec freed requests.length
      h.holds h.quiet h.sound hr
    obtain ⟨s', d', he', h'⟩ := ih (h.handled hr h1) fun x hx => ha x (List.mem_cons_of_mem _ hx)
    refine ⟨s', d', ?_, by simpa using h'⟩
    rw [List.length_append, List.length_singleton] at he'
    simp [Server.run, he, he']

/-- A request that needs an object was answered or is pending, under the object. -/
theorem answered_or_pending (h : Tracked computePayloadHash objectIDFromBuffer requests s d) {i : Nat}
    (hi : requests[i]? = some request) (hw : request.waitsFor objectIDFromBuffer = some id) :
    (s.answers i = 1 ∧ s.waiting i = 0 ∧
      ∃ reply ∈ s.sent, reply.Answers request.client request.header i) ∨
    (s.answers i = 0 ∧ s.waiting i = 1 ∧ ∃ rs, s.pendingRequests.get? id = some rs ∧
      ⟨request.client, request.header, i⟩ ∈ rs) := by
  have ha : request.Answerable objectIDFromBuffer = true := by
    unfold Request.waitsFor at hw
    unfold Request.Answerable
    cases ht : request.header.requestType with
    | duplicateObjectID =>
      rw [ht] at hw
      exact Option.isSome_iff_exists.mpr ⟨id, hw⟩
    | unknown value =>
      rw [ht] at hw
      cases hw
    | _ => rfl
  have hone := h.once i
  rw [hi] at hone
  simp only [Option.any_some, ha, if_true] at hone
  by_cases hz : s.answers i = 0
  · refine .inr ⟨hz, by omega, ?_⟩
    have hpos : 0 < s.waiting i := by omega
    obtain ⟨j, rs, hp, hc⟩ := Dict.sumValues_pos.mp hpos
    obtain ⟨r, hr, hx⟩ := List.countP_pos_iff.mp hc
    obtain rfl : r.index = i := of_decide_eq_true hx
    obtain ⟨x, hx, hcl, hhd, _, hw'⟩ := h.waiting hp hr
    cases hi.symm.trans hx
    cases hw.symm.trans hw'
    refine ⟨rs, hp, ?_⟩
    rw [hcl, hhd]
    exact hr
  · refine .inl ⟨by omega, by omega, ?_⟩
    obtain ⟨reply, hr, hx⟩ := List.countP_pos_iff.mp (Nat.pos_of_ne_zero hz)
    obtain rfl : reply.index = i := of_decide_eq_true hx
    obtain ⟨x, hx, hy⟩ := h.answered reply hr
    cases hi.symm.trans hx
    exact ⟨reply, hr, hy⟩

end Tracked


end

/-- Between requests no bound object has requests pending, each request for an object was
answered once or is pending once, and an object that becomes available answers whoever
waits for it. -/
theorem requests_answered_once (computePayloadHash : ObjectPayload → ObjectHash)
    (objectIDFromBuffer : ObjectPayload → Option ObjectID) (freed : ObjectHash)
    (requests : List Request) (h : ∀ request ∈ requests, request.Admissible objectIDFromBuffer) :
    ∃ s, Server.run computePayloadHash objectIDFromBuffer freed 0 .empty requests = some s ∧
      (∀ id, s.objectManager.hasObject id = true → s.pendingRequests.get? id = none) ∧
      (∀ i request id, requests[i]? = some request →
        request.waitsFor objectIDFromBuffer = some id →
        (s.answers i = 1 ∧ s.waiting i = 0 ∧
          ∃ reply ∈ s.sent, reply.Answers request.client request.header i) ∨
        (s.answers i = 0 ∧ s.waiting i = 1 ∧ ∃ rs, s.pendingRequests.get? id = some rs ∧
          ⟨request.client, request.header, i⟩ ∈ rs)) ∧
      ∀ request : Request, request.Admissible objectIDFromBuffer → ∃ s' out,
        s.process computePayloadHash objectIDFromBuffer freed requests.length request = some s' ∧
        s'.sent = s.sent ++ out ∧
        ∀ id payload r, s.objectManager.hasObject id = false →
          s'.objectManager.getObject id = some (some payload) → s.Reaches id r →
          r.requestHeader.requestType = .getObject → r.getReply payload ∈ out := by
  obtain ⟨s, d, he, ht⟩ := Tracked.run freed Tracked.empty h
  refine ⟨s, he, fun id hi => ht.quiet id ?_, fun i request id hi hw => ?_, fun request ha => ?_⟩
  · rw [← ht.holds.isSome id]
    exact hi
  · exact ht.answered_or_pending hi hw
  · obtain ⟨s', d', he', hr⟩ := process_spec freed requests.length
      ht.holds ht.quiet ht.sound ha
    obtain ⟨out, hs, _, hx⟩ := hr.sent
    refine ⟨s', out, he', hs, fun id payload r hn hp => hx id payload r ?_ ?_⟩
    · rw [← Option.not_isSome_iff_eq_none, ← ht.holds.isSome id]
      exact Bool.not_eq_true _ ▸ hn
    · rw [hr.holds.get id] at hp
      exact Option.some.inj hp

/-- A `GET` of object 2, object 2 as a duplicate of object 1, then object 1. -/
theorem requests_answered_once_chain :
    let header id length type : ObjectRequestHeader := ⟨⟨id, 0, 0, 0⟩, length, 0, type⟩
    let original : ObjectPayload := [0, 0, 0, 0, 5, 0, 0, 0, 0, 0, 0, 0, 4, 0, 0, 0, 1] ++ List.replicate 31 0
    let requests : List Request := [⟨"a", header 2 8 .getObject, []⟩,
      ⟨"b", header 2 48 .duplicateObjectID, original⟩, ⟨"c", header 1 1 .setObject, [7]⟩]
    ∃ s, Server.run (fun _ => 0) ObjectID.fromBuffer 0 0 .empty requests = some s ∧
      ∀ id, s.objectManager.hasObject id = true → s.pendingRequests.get? id = none := by
  intro header original requests
  obtain ⟨s, he, hq, _⟩ := requests_answered_once (fun _ => 0) ObjectID.fromBuffer 0 requests (by
    intro request hr
    simp only [requests, List.mem_cons, List.not_mem_nil, or_false] at hr
    rcases hr with rfl | rfl | rfl
    · trivial
    · exact ⟨rfl, by decide⟩
    · change (1 : UInt64).toNat ≤ memoryLimitInBytes
      decide)
  exact ⟨s, he, hq⟩

end Scaler.ObjectStorage
