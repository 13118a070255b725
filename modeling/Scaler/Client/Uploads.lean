import Scaler.Client.Deduplication

/-! What a returned `ObjectCache` refers to. An id is generated for one payload and an id is valid
only while its object is pending or stored, so after a commit everything that was returned is
stored under its id. -/

namespace Scaler

open Collections

namespace ObjectBuffer

variable {config : BufferConfig} {b b' : ObjectBuffer} {obj : PyObject} {i : ObjectID} {p p' : Bytes}
  {c : ObjectCache}

variable (config) in
/-- The id was generated for the payload, after the first `since` ids. -/
def GeneratedFor (generated : List Bytes) (since : Nat) (i : ObjectID) (p : Bytes) : Prop :=
  ∃ n, since ≤ n ∧ generated[n]? = some p ∧ i = config.generateObjectId n

/-- The payload waits for the next commit, or it was announced and stored. -/
def Held (b : ObjectBuffer) (i : ObjectID) (p : Bytes) : Prop :=
  (∃ c ∈ b.pendingObjects, c.objectId = i ∧ c.objectPayload = p) ∨
    ((∃ type name, (i, type, name) ∈ b.announced) ∧ (i, p) ∈ b.uploaded)

variable (config) in
abbrev Fresh (b : ObjectBuffer) (c : ObjectCache) : Prop :=
  GeneratedFor config b.generated b.generatedBefore c.objectId c.objectPayload

variable (config) in
structure Backed (b : ObjectBuffer) : Prop where
  bound : b.generatedBefore ≤ b.generated.length
  valid : ∀ i ∈ b.validObjectIds, i = config.serializerObjectId ∨
    ∃ p, GeneratedFor config b.generated b.generatedBefore i p ∧ b.Held i p
  hashes : ∀ h i, b.payloadHashToObjectId.get? h = some i →
    ∃ p, config.md5 p = h ∧ GeneratedFor config b.generated b.generatedBefore i p
  persistent : ∀ k c, b.dedupCache.get? k = some c → b.Fresh config c
  cycle : ∀ k c, b.cycleDedupCache.get? k = some c → b.Fresh config c
  pending : ∀ c ∈ b.pendingObjects, b.Fresh config c
  uploaded : ∀ u ∈ b.uploaded, u = (config.serializerObjectId, config.serializerPayload) ∨
    GeneratedFor config b.generated b.generatedBefore u.1 u.2
  returned : ∀ oc ∈ b.returned, b.Fresh config oc.2 ∧ b.Held oc.2.objectId oc.2.objectPayload
  returnedBefore : ∀ oc ∈ b.returnedBefore, ∃ n, n < b.generatedBefore ∧
    b.generated[n]? = some oc.2.objectPayload ∧ oc.2.objectId = config.generateObjectId n

/-- What the claims about ids rest on: the digest has no collisions and random ids are new. -/
structure Reliable (config : BufferConfig) : Prop where
  digest : Function.Injective config.md5
  ids : Function.Injective config.generateObjectId
  serializer : ∀ n, config.generateObjectId n ≠ config.serializerObjectId

theorem GeneratedFor.append {generated : List Bytes} {since : Nat} (rest : List Bytes)
    (h : GeneratedFor config generated since i p) : GeneratedFor config (generated ++ rest) since i p := by
  obtain ⟨n, hn, hp, hi⟩ := h
  refine ⟨n, hn, ?_, hi⟩
  rw [List.getElem?_append_left (List.getElem?_eq_some_iff.mp hp).1, hp]

theorem GeneratedFor.unique (hr : Reliable config) {generated : List Bytes} {since since' : Nat}
    (h : GeneratedFor config generated since i p) (h' : GeneratedFor config generated since' i p') : p = p' := by
  obtain ⟨n, -, hp, hi⟩ := h
  obtain ⟨n', -, hp', hi'⟩ := h'
  have hn : n = n' := hr.ids (hi.symm.trans hi')
  subst hn
  rw [hp] at hp'
  exact Option.some.inj hp'

theorem GeneratedFor.ne_serializer (hr : Reliable config) {generated : List Bytes} {since : Nat}
    (h : GeneratedFor config generated since i p) : i ≠ config.serializerObjectId := by
  obtain ⟨n, -, -, hi⟩ := h
  rw [hi]
  exact hr.serializer n

theorem Held.mono (h : b.Held i p) (hpending : ∀ c ∈ b.pendingObjects, c ∈ b'.pendingObjects)
    (hannounced : ∀ a ∈ b.announced, a ∈ b'.announced) (huploaded : ∀ u ∈ b.uploaded, u ∈ b'.uploaded) :
    b'.Held i p := by
  rcases h with ⟨c, hc, hi⟩ | ⟨⟨type, name, ha⟩, hu⟩
  · exact .inl ⟨c, hpending c hc, hi⟩
  · exact .inr ⟨⟨type, name, hannounced _ ha⟩, huploaded _ hu⟩

/-- A valid id stands for the payload it was generated for. -/
theorem Backed.held (hb : Backed config b) (hr : Reliable config) (hc : b.Fresh config c)
    (hvalid : c.objectId ∈ b.validObjectIds) : b.Held c.objectId c.objectPayload := by
  rcases hb.valid _ hvalid with hser | ⟨p, hp, hheld⟩
  · exact absurd hser (hc.ne_serializer hr)
  · rwa [hc.unique hr hp]

theorem Backed.noteCall (hb : Backed config b) : Backed config b.noteCall :=
  ⟨hb.bound, hb.valid, hb.hashes, hb.persistent, hb.cycle, hb.pending, hb.uploaded, hb.returned,
    hb.returnedBefore⟩

theorem Backed.noteSerialized (hb : Backed config b) (obj : PyObject) (payload : Bytes) :
    Backed config (b.noteSerialized obj payload) :=
  ⟨hb.bound, hb.valid, hb.hashes, hb.persistent, hb.cycle, hb.pending, hb.uploaded, hb.returned,
    hb.returnedBefore⟩

theorem Backed.dropStale (hb : Backed config b) (obj : PyObject) : Backed config (b.dropStale obj) := by
  refine ⟨hb.bound, hb.valid, hb.hashes, fun k c hc => ?_, hb.cycle, hb.pending, hb.uploaded, hb.returned,
    hb.returnedBefore⟩
  rw [ObjectBuffer.dropStale, Dict.get?_erase] at hc
  split at hc
  · cases hc
  · exact hb.persistent k c hc

theorem Backed.noteReturned (hb : Backed config b) (hr : Reliable config) (hc : b.Fresh config c)
    (hvalid : c.objectId ∈ b.validObjectIds) (obj : PyObject) : Backed config (b.noteReturned obj c) := by
  refine ⟨hb.bound, hb.valid, hb.hashes, hb.persistent, hb.cycle, hb.pending, hb.uploaded, ?_,
    hb.returnedBefore⟩
  intro oc hoc
  rcases List.mem_append.mp hoc with hoc | hoc
  · exact hb.returned oc hoc
  · cases List.mem_singleton.mp hoc
    exact ⟨hc, hb.held hr hc hvalid⟩

theorem Backed.rememberDedup (hb : Backed config b) (hc : b.Fresh config c) (obj : PyObject) :
    Backed config (b.rememberDedup obj c) := by
  have hset : ∀ (d : Dict Nat ObjectCache), (∀ k c, d.get? k = some c → b.Fresh config c) →
      ∀ k c', (d.set obj.address c).get? k = some c' → b.Fresh config c' := by
    intro d hd k c' hc'
    rcases Dict.get?_set_cases hc' with ⟨-, rfl⟩ | hold
    · exact hc
    · exact hd k c' hold
  unfold ObjectBuffer.rememberDedup
  split
  · exact ⟨hb.bound, hb.valid, hb.hashes, hset _ hb.persistent, hset _ hb.cycle, hb.pending, hb.uploaded,
      hb.returned, hb.returnedBefore⟩
  · exact ⟨hb.bound, hb.valid, hb.hashes, hb.persistent, hset _ hb.cycle, hb.pending, hb.uploaded,
      hb.returned, hb.returnedBefore⟩

variable (config) in
/-- The buffer after more ids have been generated. -/
theorem Backed.generate (hb : Backed config b) (payload : Bytes) :
    Backed config
      { b with
        generated := b.generated ++ [payload]
        payloadHashToObjectId :=
          b.payloadHashToObjectId.set (config.md5 payload) (config.generateObjectId b.generated.length) } where
  bound := by
    have hbound := hb.bound
    simp only [List.length_append, List.length_cons, List.length_nil]
    omega
  valid := by
    intro i hi
    rcases hb.valid i hi with hser | ⟨p, hp, hheld⟩
    · exact .inl hser
    · exact .inr ⟨p, hp.append _, hheld⟩
  hashes := by
    intro h i hi
    rcases Dict.get?_set_cases hi with ⟨rfl, rfl⟩ | hold
    · exact ⟨payload, rfl, b.generated.length, hb.bound, by simp, rfl⟩
    · obtain ⟨p, hp, hgen⟩ := hb.hashes h i hold
      exact ⟨p, hp, hgen.append _⟩
  persistent := fun k c hc => (hb.persistent k c hc).append _
  cycle := fun k c hc => (hb.cycle k c hc).append _
  pending := fun c hc => (hb.pending c hc).append _
  uploaded := fun u hu => (hb.uploaded u hu).imp_right fun h => h.append _
  returned := fun oc hoc => ⟨(hb.returned oc hoc).1.append _, (hb.returned oc hoc).2⟩
  returnedBefore := by
    intro oc hoc
    obtain ⟨n, hn, hp, hi⟩ := hb.returnedBefore oc hoc
    refine ⟨n, hn, ?_, hi⟩
    rw [List.getElem?_append_left (List.getElem?_eq_some_iff.mp hp).1, hp]

/-- The id for a payload was generated for that payload. -/
theorem Backed.objectIdForPayload (hb : Backed config b) (hr : Reliable config) (payload : Bytes) :
    Backed config (b.objectIdForPayload config payload).2 ∧
      GeneratedFor config (b.objectIdForPayload config payload).2.generated
        (b.objectIdForPayload config payload).2.generatedBefore
        (b.objectIdForPayload config payload).1 payload := by
  unfold ObjectBuffer.objectIdForPayload
  split
  · rename_i objectId hknown
    refine ⟨hb, ?_⟩
    unfold knownObjectId at hknown
    split at hknown
    · cases hknown
    · rename_i known hget
      split at hknown
      · cases hknown
        obtain ⟨p, hp, hgen⟩ := hb.hashes _ _ hget
        rwa [← hr.digest hp]
      · cases hknown
  · exact ⟨hb.generate config payload, b.generated.length, hb.bound, by simp, rfl⟩

theorem Backed.bufferSendSerializedObject (hb : Backed config b) (hc : b.Fresh config c) :
    Backed config (b.bufferSendSerializedObject c) ∧ (b.bufferSendSerializedObject c).Fresh config c ∧
      c.objectId ∈ (b.bufferSendSerializedObject c).validObjectIds := by
  unfold ObjectBuffer.bufferSendSerializedObject
  split
  · rename_i hvalid
    exact ⟨hb, hc, hvalid⟩
  · have hmono : ∀ i p, b.Held i p →
        Held { b with
          pendingObjects := b.pendingObjects ++ [c]
          validObjectIds := c.objectId :: b.validObjectIds } i p := fun i p h =>
      h.mono (fun _ hc => List.mem_append_left _ hc) (fun _ ha => ha) fun _ hu => hu
    refine ⟨⟨hb.bound, fun i hi => ?_, hb.hashes, hb.persistent, hb.cycle, fun c' hc' => ?_, hb.uploaded,
      fun oc hoc => ?_, hb.returnedBefore⟩, hc, List.mem_cons_self⟩
    · rcases List.mem_cons.mp hi with rfl | hi
      · exact .inr ⟨c.objectPayload, hc, .inl ⟨c, List.mem_append_right _ List.mem_cons_self, rfl, rfl⟩⟩
      · rcases hb.valid i hi with hser | ⟨p, hp, hheld⟩
        · exact .inl hser
        · exact .inr ⟨p, hp, hmono i p hheld⟩
    · rcases List.mem_append.mp hc' with hc' | hc'
      · exact hb.pending c' hc'
      · cases List.mem_singleton.mp hc'
        exact hc
    · obtain ⟨hfresh, hheld⟩ := hb.returned oc hoc
      exact ⟨hfresh, hmono _ _ hheld⟩

theorem Backed.sendBuilt (hb : Backed config b) (hr : Reliable config) (payload : Bytes)
    (name : ObjectID → Bytes) :
    Backed config (b.sendBuilt config payload name) ∧
      (b.sendBuilt config payload name).Fresh config (b.builtCache config payload name) ∧
      (b.builtCache config payload name).objectId ∈ (b.sendBuilt config payload name).validObjectIds := by
  obtain ⟨hid, hgen⟩ := hb.objectIdForPayload hr payload
  exact hid.bufferSendSerializedObject hgen

theorem valid_of_persistentDedup (h : b.persistentDedup obj = some c) :
    b.dedupCache.get? obj.address = some c ∧ c.objectId ∈ b.validObjectIds := by
  unfold persistentDedup at h
  split at h
  · cases h
  · rename_i hget
    split at h
    · rename_i hguard
      cases h
      exact ⟨hget, hguard.1⟩
    · cases h

theorem valid_of_cycleDedup (h : b.cycleDedup obj = some c) :
    b.cycleDedupCache.get? obj.address = some c ∧ c.objectId ∈ b.validObjectIds := by
  unfold cycleDedup at h
  split at h
  · cases h
  · rename_i hget
    split at h
    · rename_i hvalid
      cases h
      exact ⟨hget, hvalid⟩
    · cases h

theorem Backed.sent (hr : Reliable config) (hb : Backed config b) (h : Sent config obj b b') :
    Backed config b' := by
  induction h with
  | persistent h =>
    obtain ⟨hget, hvalid⟩ := valid_of_persistentDedup h
    exact hb.noteReturned hr (hb.persistent _ _ hget) hvalid obj
  | cycle h =>
    obtain ⟨hget, hvalid⟩ := valid_of_cycleDedup h
    exact hb.noteReturned hr (hb.cycle _ _ hget) hvalid obj
  | raised => exact hb.noteCall
  | @built b payload name =>
    obtain ⟨hsend, hfresh, hvalid⟩ := (hb.noteSerialized obj payload).sendBuilt hr payload name
    exact hsend.noteReturned hr hfresh hvalid obj
  | @remembered b payload name =>
    obtain ⟨hsend, hfresh, hvalid⟩ := (hb.noteSerialized obj payload).sendBuilt hr payload name
    refine (hsend.rememberDedup hfresh obj).noteReturned hr ?_ ?_ obj
    · unfold ObjectBuffer.rememberDedup
      split
      · exact hfresh
      · exact hfresh
    · unfold ObjectBuffer.rememberDedup
      split
      · exact hvalid
      · exact hvalid
  | stale _ ih => exact ih (hb.dropStale obj)

theorem Held.runUploads (h : b.Held i p) (agent : AgentAnswer) : (b.runUploads agent).Held i p :=
  h.mono (fun _ hc => hc) (fun _ ha => List.mem_append_left _ ha) fun _ hu => List.mem_append_left _ hu

theorem Backed.runUploads (hb : Backed config b) (agent : AgentAnswer) :
    Backed config (b.runUploads agent) := by
  refine ⟨hb.bound, fun i hi => ?_, hb.hashes, hb.persistent, hb.cycle, hb.pending, fun u hu => ?_,
    fun oc hoc => ?_, hb.returnedBefore⟩
  · rcases hb.valid i hi with hser | ⟨p, hp, hheld⟩
    · exact .inl hser
    · exact .inr ⟨p, hp, hheld.runUploads agent⟩
  · rcases List.mem_append.mp hu with hu | hu
    · exact hb.uploaded u hu
    · obtain ⟨c, hc, rfl⟩ := List.mem_map.mp hu
      exact .inr (hb.pending c (List.mem_filter.mp hc).1)
  · obtain ⟨hfresh, hheld⟩ := hb.returned oc hoc
    exact ⟨hfresh, hheld.runUploads agent⟩

/-- Whoever is pending when all uploads succeed is stored afterwards. -/
theorem Held.committed (h : b.Held i p)
    (hall : ∀ c ∈ b.pendingObjects, (∃ type name, (c.objectId, type, name) ∈ b.announced) ∧
      (c.objectId, c.objectPayload) ∈ b.uploaded) : b.committed.Held i p := by
  rcases h with ⟨c, hc, rfl, rfl⟩ | hstored
  · exact .inr (hall c hc)
  · exact .inr hstored

theorem Backed.committed (hb : Backed config b)
    (hall : ∀ c ∈ b.pendingObjects, (∃ type name, (c.objectId, type, name) ∈ b.announced) ∧
      (c.objectId, c.objectPayload) ∈ b.uploaded) : Backed config b.committed := by
  refine ⟨hb.bound, fun i hi => ?_, hb.hashes, hb.persistent, fun k c hc => ?_, fun c hc => ?_, hb.uploaded,
    fun oc hoc => ?_, hb.returnedBefore⟩
  · rcases hb.valid i hi with hser | ⟨p, hp, hheld⟩
    · exact .inl hser
    · exact .inr ⟨p, hp, hheld.committed hall⟩
  · cases hc
  · cases hc
  · obtain ⟨hfresh, hheld⟩ := hb.returned oc hoc
    exact ⟨hfresh, hheld.committed hall⟩

theorem stored_runUploads {agent : AgentAnswer} (hc : c ∈ b.pendingObjects)
    (h : agent.upload c.objectId = .stored) :
    (∃ type name, (c.objectId, type, name) ∈ (b.runUploads agent).announced) ∧
      (c.objectId, c.objectPayload) ∈ (b.runUploads agent).uploaded := by
  refine ⟨⟨c.objectType, c.objectName, List.mem_append_right _ (List.mem_map_of_mem hc)⟩, ?_⟩
  have hmem : c ∈ b.pendingObjects.filter fun c => agent.upload c.objectId ≠ .raised :=
    List.mem_filter.mpr ⟨hc, by simp [h]⟩
  exact List.mem_append_right _ (List.mem_map_of_mem hmem)

theorem Backed.cleared (hb : Backed config b) (hr : Reliable config) : Backed config (b.cleared config) where
  bound := le_rfl
  valid := fun i hi => .inl (List.mem_singleton.mp hi)
  hashes := fun h i hi => by cases hi
  persistent := fun k c hc => by cases hc
  cycle := fun k c hc => by cases hc
  pending := fun c hc => by cases hc
  uploaded := by
    intro u hu
    obtain ⟨hmem, hser⟩ := List.mem_filter.mp hu
    rcases hb.uploaded u hmem with hu | hgen
    · exact .inl hu
    · exact absurd (by simpa using hser) (hgen.ne_serializer hr)
  returned := fun oc hoc => by cases hoc
  returnedBefore := by
    intro oc hoc
    rcases List.mem_append.mp hoc with hoc | hoc
    · obtain ⟨n, hn, hp, hi⟩ := hb.returnedBefore oc hoc
      exact ⟨n, Nat.lt_of_lt_of_le hn hb.bound, hp, hi⟩
    · obtain ⟨⟨n, -, hp, hi⟩, -⟩ := hb.returned oc hoc
      exact ⟨n, (List.getElem?_eq_some_iff.mp hp).1, hp, hi⟩

theorem Backed.create (config : BufferConfig) : Backed config (create config) where
  bound := le_rfl
  valid := fun i hi => .inl (List.mem_singleton.mp hi)
  hashes := fun h i hi => by cases hi
  persistent := fun k c hc => by cases hc
  cycle := fun k c hc => by cases hc
  pending := fun c hc => by cases hc
  uploaded := fun u hu => .inl (List.mem_singleton.mp hu)
  returned := fun oc hoc => by cases hoc
  returnedBefore := fun oc hoc => by cases hoc

theorem Backed.kept (hr : Reliable config) : KeptByBuffer config (fun _ => True) (Backed config) where
  sent := fun _ _ _ _ hb h => hb.sent hr h
  commit := by
    intro agent
    refine keeps_commitSendObjects agent (fun b hb hempty => ?_) (fun b hb hall => ?_) fun b hb => ?_
    · exact hb.committed fun c hc => by simp [hempty] at hc
    · exact (hb.runUploads agent).committed fun c hc => stored_runUploads hc (hall c hc)
    · exact hb.runUploads agent
  clear := by
    intro accepts b hb
    rw [endState_clear]
    exact hb.cleared hr

/-- The id was announced, and stored with the payload of the cache and with no other. -/
def Available (b : ObjectBuffer) (c : ObjectCache) : Prop :=
  (∃ type name, (c.objectId, type, name) ∈ b.announced) ∧ (c.objectId, c.objectPayload) ∈ b.uploaded ∧
    ∀ p, (c.objectId, p) ∈ b.uploaded → p = c.objectPayload

theorem Backed.available (hb : Backed config b) (hr : Reliable config) (hpending : b.pendingObjects = [])
    {oc : PyObject × ObjectCache} (hoc : oc ∈ b.returned) : b.Available oc.2 := by
  obtain ⟨hfresh, hheld⟩ := hb.returned oc hoc
  rcases hheld with ⟨c, hc, -⟩ | ⟨hannounced, hstored⟩
  · rw [hpending] at hc
    cases hc
  · refine ⟨hannounced, hstored, fun p hp => ?_⟩
    rcases hb.uploaded _ hp with hser | hgen
    · exact absurd (congrArg Prod.fst hser) (hfresh.ne_serializer hr)
    · exact hgen.unique hr hfresh

theorem pending_of_commitSendObjects {agent : AgentAnswer} (h : (commitSendObjects agent).run b = .ok () b') :
    b'.pendingObjects = [] := by
  obtain ⟨-, he⟩ | ⟨-, he⟩ | ⟨e, he⟩ | ⟨e, he⟩ := run_commitSendObjects agent b
  · cases he.symm.trans h
    rfl
  · cases he.symm.trans h
    rfl
  · cases he.symm.trans h
  · cases he.symm.trans h

/-- Every id that was ever returned was generated for the payload it was returned with. -/
theorem Backed.generatedFor (hb : Backed config b) {oc : PyObject × ObjectCache}
    (hoc : oc ∈ b.returnedBefore ++ b.returned) :
    GeneratedFor config b.generated 0 oc.2.objectId oc.2.objectPayload := by
  rcases List.mem_append.mp hoc with hoc | hoc
  · obtain ⟨n, -, hp, hi⟩ := hb.returnedBefore oc hoc
    exact ⟨n, Nat.zero_le n, hp, hi⟩
  · obtain ⟨⟨n, -, hp, hi⟩, -⟩ := hb.returned oc hoc
    exact ⟨n, Nat.zero_le n, hp, hi⟩

theorem Backed.ne_returnedBefore (hb : Backed config b) (hr : Reliable config) {oc oc' : PyObject × ObjectCache}
    (hoc : oc ∈ b.returnedBefore) (hoc' : oc' ∈ b.returned) : oc.2.objectId ≠ oc'.2.objectId := by
  obtain ⟨n, hn, -, hi⟩ := hb.returnedBefore oc hoc
  obtain ⟨⟨n', hn', -, hi'⟩, -⟩ := hb.returned oc' hoc'
  intro he
  have hsame : n = n' := hr.ids (hi.symm.trans (he.trans hi'))
  omega

end ObjectBuffer

namespace ClientSession

open ObjectBuffer

variable {config : BufferConfig}

theorem backed_step (hr : Reliable config) {s : ClientSession} (hs : Backed config s.buffer) (e : SessionEvent) :
    Backed config (step config s e).buffer := by
  cases e with
  | allocate address weakReferenceable =>
    simp only [step]
    split
    · exact hs
    · exact hs
  | free obj =>
    simp only [step, forget]
    split
    · split
      · exact ⟨hs.bound, hs.valid, hs.hashes, hs.persistent, hs.cycle, hs.pending, hs.uploaded, hs.returned,
          hs.returnedBefore⟩
      · exact hs
    · exact hs
  | call c =>
    simp only [step]
    split
    · exact (Backed.kept hr).call (fun _ _ => trivial) _ hs
    · exact hs

theorem backed_run (hr : Reliable config) (events : List SessionEvent) :
    Backed config (run config events).buffer := by
  have hfold : ∀ s : ClientSession, Backed config s.buffer → Backed config (events.foldl (step config) s).buffer := by
    induction events with
    | nil => exact fun s hs => hs
    | cons e events ih => exact fun s hs => ih _ (backed_step hr hs e)
  exact hfold (start config) (.create config)

/-- After a commit that returns, everything returned since the last `clear` is stored under its
id with its payload; payloads do not share ids; a `clear` ends the use of the ids before it. -/
theorem returned_objects_stored (config : BufferConfig) (hr : Reliable config) (events : List SessionEvent) :
    (∀ agent b, (commitSendObjects agent).run (run config events).buffer = .ok () b →
      ∀ oc ∈ b.returned, b.Available oc.2) ∧
      (∀ oc ∈ (run config events).buffer.returnedBefore ++ (run config events).buffer.returned,
        oc.2.objectId ≠ config.serializerObjectId ∧
        ∀ oc' ∈ (run config events).buffer.returnedBefore ++ (run config events).buffer.returned,
          oc.2.objectId = oc'.2.objectId → oc.2.objectPayload = oc'.2.objectPayload) ∧
      ∀ oc ∈ (run config events).buffer.returnedBefore, ∀ oc' ∈ (run config events).buffer.returned,
        oc.2.objectId ≠ oc'.2.objectId := by
  have hb := backed_run hr events
  refine ⟨fun agent b hcommit oc hoc => ?_, fun oc hoc => ⟨?_, fun oc' hoc' he => ?_⟩, fun oc hoc oc' hoc' => ?_⟩
  · have hafter := (Backed.kept hr).commit agent _ hb
    rw [endState_of_ok hcommit] at hafter
    exact hafter.available hr (pending_of_commitSendObjects hcommit) hoc
  · exact (hb.generatedFor hoc).ne_serializer hr
  · have hgen := hb.generatedFor hoc
    rw [he] at hgen
    exact hgen.unique hr (hb.generatedFor hoc')
  · exact hb.ne_returnedBefore hr hoc hoc'

section Example

/-- The payload of a digest, by its first byte. -/
def payloadOf (d : Bytes) : Bytes :=
  if d.head? = some 147 then [0]
  else if d.head? = some 85 then [1]
  else if d.head? = some 158 then [2]
  else d.drop 17

theorem digest_injective : Function.Injective digest := by
  have hinverse : Function.LeftInverse payloadOf digest := by
    intro payload
    unfold digest
    split
    · subst payload
      rfl
    split
    · subst payload
      rfl
    split
    · subst payload
      rfl
    · rfl
  exact hinverse.injective

theorem numberConfig_reliable : Reliable numberConfig where
  digest := digest_injective
  ids := by
    intro n n' h
    have hbytes : n + 1 = n' + 1 := congrArg ObjectID.bytes h
    omega
  serializer := by
    intro n h
    have hbytes : n + 1 = 0 := congrArg ObjectID.bytes h
    omega

/-- The upload of the second object fails, a `clear` follows, and the call is made again. -/
def submitAgain : List SessionEvent :=
  [.allocate 16 true, .allocate 32 false,
    .call (.submitVerbose ⟨0, 16, true⟩ (.ok [.object ⟨1, 32, false⟩]) false
      ⟨true, fun i => if i = ⟨2⟩ then .raised else .stored⟩),
    .call (.clear true), .call (.bufferSendFunction ⟨0, 16, true⟩),
    .call (.bufferSendObject ⟨1, 32, false⟩ none false true)]

theorem returned_objects_stored_again :
    Reliable numberConfig ∧ (run numberConfig submitAgain).buffer.returned.length = 2 ∧
      ∀ agent b, (commitSendObjects agent).run (run numberConfig submitAgain).buffer = .ok () b →
        ∀ oc ∈ b.returned, b.Available oc.2 :=
  ⟨numberConfig_reliable, rfl,
    (returned_objects_stored numberConfig numberConfig_reliable submitAgain).1⟩

end Example

end ClientSession

end Scaler
