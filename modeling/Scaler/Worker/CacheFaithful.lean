import Scaler.Worker.ObjectCache

/-! What user code is called with and how often an id is fetched. Objects are fetched once between two
deletions. A serializer is looked for among the clients by its object id, where it never is, so that
every task fetches it; and an object is read with the serializer of the first client that names it. -/

namespace Scaler.Processor

open Collections

namespace ObjectCache

variable {Serializer Value : Type} {p : Platform Serializer Value} {cache cache' : ObjectCache Serializer Value}
  {client : ClientID} {id : ObjectID}

/-- What the storage holds under an id, read with a serializer. -/
def stored (p : Platform Serializer Value) (cache : ObjectCache Serializer Value) (serializer : Serializer) (id : ObjectID) :
    Except TaskError Value :=
  match p.deserialize serializer (p.storage id (cache.deletions id)) with
  | .ok value => .ok value
  | .error error => .error (.deserialize ⟨id, .raised error⟩)

/-- The payload of the client's own serializer. -/
def ownPayload (p : Platform Serializer Value) (cache : ObjectCache Serializer Value) (client : ClientID) : Bytes :=
  p.storage (p.generateSerializerObjectId client) (cache.deletions (p.generateSerializerObjectId client))

/-- The payloads that the task names, read with the client's own serializer. -/
def expected (p : Platform Serializer Value) (cache : ObjectCache Serializer Value) (task : Task Value) :
    Option (Except TaskError (Value × List Value)) :=
  (p.loads (cache.ownPayload p task.source)).map fun serializer => do
    let function ← cache.stored p serializer task.funcObjectId
    let args ← task.functionArgs.mapM (cache.stored p serializer)
    return (function, args)

/-- Deletions leave no object behind, and an object that was fetched since is cached. -/
structure Wf (p : Platform Serializer Value) (cache : ObjectCache Serializer Value) : Prop where
  plain : ∀ id, cache.cachedObjects.contains id = true → p.isSerializer id = false
  clients : ∀ bytes, cache.serializers.contains bytes = true → 39 ≤ bytes.length
  cachedFor : ∀ id, cache.cachedObjects.contains id = true ↔ cache.cachedFor.contains id = true
  cached : ∀ id, (id, cache.deletions id) ∈ cache.fetched → p.isSerializer id = false → cache.cachedObjects.contains id = true
  before : ∀ id n, (id, n) ∈ cache.fetched → n ≤ cache.deletions id
  once : (cache.fetched.filter fun entry => p.isSerializer entry.1 = false).Nodup

theorem Wf.empty : (empty : ObjectCache Serializer Value).Wf p :=
  ⟨nofun, nofun, fun _ => Iff.rfl, nofun, nofun, List.nodup_nil⟩

/-- No id of an object is that of a client. -/
theorem hasObject_eq (h : cache.Wf p) (id : ObjectID) : cache.hasObject id = cache.cachedObjects.contains id := by
  have hclients : cache.serializers.contains id.bytes = false := by
    refine Bool.eq_false_iff.mpr fun hcontains => ?_
    have hlong := h.clients id.bytes hcontains
    rw [id.length] at hlong
    exact absurd hlong (by decide)
  rw [hasObject, hclients, Bool.or_false]

/-- A serializer is fetched whether it is there or not. -/
theorem cacheObject_serializer (h : cache.Wf p) (hid : p.isSerializer id = true) :
    cacheObject p client cache id = (p.loads (p.storage id (cache.deletions id))).map
      ({ cache with fetched := cache.fetched ++ [(id, cache.deletions id)] }.addSerializer client) := by
  have hnot : ¬ cache.hasObject id = true := by
    rw [hasObject_eq h]
    intro hcontains
    have hplain := h.plain id hcontains
    rw [hid] at hplain
    cases hplain
  rw [cacheObject, if_neg hnot, addObject, if_pos hid]

theorem cacheObject_cached (h : cache.Wf p) (hcached : cache.cachedObjects.contains id = true) :
    cacheObject p client cache id = some cache := by
  rw [cacheObject, hasObject_eq h, if_pos hcached]

/-- What an object is cached as. -/
def deserialized (p : Platform Serializer Value) (cache : ObjectCache Serializer Value) (client : ClientID) (id : ObjectID) :
    Except DeserializeObjectError Value :=
  match cache.deserialize p client (p.storage id (cache.deletions id)) with
  | .ok value => .ok value
  | .error cause => .error ⟨id, cause⟩

theorem cacheObject_new (h : cache.Wf p) (hnew : cache.cachedObjects.contains id = false) (hid : p.isSerializer id = false) :
    cacheObject p client cache id = some { cache with
      cachedObjects := cache.cachedObjects.set id (cache.deserialized p client id)
      cachedFor := cache.cachedFor.set id (client, cache.deletions (p.generateSerializerObjectId client))
      fetched := cache.fetched ++ [(id, cache.deletions id)] } := by
  have hnot : ¬ cache.hasObject id = true := by
    rw [hasObject_eq h, hnew]
    exact nofun
  rw [cacheObject, if_neg hnot, addObject, if_neg (by rw [hid]; exact nofun)]
  rfl

theorem contains_set {K V : Type} [DecidableEq K] (d : Dict K V) (k k' : K) (v : V) :
    (d.set k v).contains k' = true ↔ k' = k ∨ d.contains k' = true := by
  rw [Dict.contains, Dict.get?_set, Dict.contains]
  split
  · next heq => exact ⟨fun _ => .inl heq, fun _ => rfl⟩
  · next hne => exact ⟨.inr, fun h => h.resolve_left hne⟩

theorem Wf.serializer (h : cache.Wf p) (hid : p.isSerializer id = true) (serializer : Serializer) :
    ({ cache with fetched := cache.fetched ++ [(id, cache.deletions id)] }.addSerializer client serializer).Wf p where
  plain := h.plain
  clients := fun bytes hcontains => by
    rcases (contains_set _ _ _ _).mp hcontains with rfl | hold
    · exact client.long
    · exact h.clients bytes hold
  cachedFor := h.cachedFor
  cached := fun id' hmem hplain => by
    rcases List.mem_append.mp hmem with hold | hnew
    · exact h.cached id' hold hplain
    · have heq : id' = id := congrArg Prod.fst (List.mem_singleton.mp hnew)
      rw [heq, hid] at hplain
      cases hplain
  before := fun id' n hmem => by
    rcases List.mem_append.mp hmem with hold | hnew
    · exact h.before id' n hold
    · cases List.mem_singleton.mp hnew
      exact Nat.le_refl _
  once := by
    rw [addSerializer, List.filter_append, List.filter_cons_of_neg (by simp [hid]), List.filter_nil, List.append_nil]
    exact h.once

/-- An object that is not cached has not been fetched since it was deleted. -/
theorem not_fetched (h : cache.Wf p) (hnew : cache.cachedObjects.contains id = false) (hid : p.isSerializer id = false) :
    (id, cache.deletions id) ∉ cache.fetched := by
  intro hmem
  rw [h.cached id hmem hid] at hnew
  cases hnew

theorem Wf.new (h : cache.Wf p) (hnew : cache.cachedObjects.contains id = false) (hid : p.isSerializer id = false)
    (content : Except DeserializeObjectError Value) (reader : ClientID × Nat) :
    Wf p { cache with
      cachedObjects := cache.cachedObjects.set id content
      cachedFor := cache.cachedFor.set id reader
      fetched := cache.fetched ++ [(id, cache.deletions id)] } where
  plain := fun id' hcontains => by
    rcases (contains_set _ _ _ _).mp hcontains with rfl | hold
    · exact hid
    · exact h.plain id' hold
  clients := h.clients
  cachedFor := fun id' => by
    rw [contains_set, contains_set, h.cachedFor]
  cached := fun id' hmem hplain => by
    refine (contains_set _ _ _ _).mpr ?_
    rcases List.mem_append.mp hmem with hold | hnew
    · exact .inr (h.cached id' hold hplain)
    · exact .inl (congrArg Prod.fst (List.mem_singleton.mp hnew))
  before := fun id' n hmem => by
    rcases List.mem_append.mp hmem with hold | hnew
    · exact h.before id' n hold
    · cases List.mem_singleton.mp hnew
      exact Nat.le_refl _
  once := by
    rw [List.filter_append, List.filter_cons_of_pos (by simp [hid]), List.filter_nil]
    refine List.nodup_append.mpr ⟨h.once, List.nodup_singleton _, ?_⟩
    rintro entry hold _ hnew' rfl
    rw [List.mem_singleton.mp hnew'] at hold
    exact not_fetched h hnew hid (List.mem_filter.mp hold).1

theorem Wf.cacheObject (h : cache.Wf p) (hstep : cacheObject p client cache id = some cache') : cache'.Wf p := by
  cases hid : p.isSerializer id with
  | true =>
    rw [cacheObject_serializer h hid] at hstep
    obtain ⟨serializer, -, rfl⟩ := Option.map_eq_some_iff.mp hstep
    exact h.serializer hid serializer
  | false =>
    cases hcached : cache.cachedObjects.contains id with
    | true =>
      rw [cacheObject_cached h hcached] at hstep
      cases hstep
      exact h
    | false =>
      rw [cacheObject_new h hcached hid] at hstep
      cases hstep
      exact h.new hcached hid _ _

theorem Wf.delObject (h : cache.Wf p) (id : ObjectID) : (cache.delObject id).Wf p := by
  have hcontains : ∀ {V : Type} (d : Dict ObjectID V) (id' : ObjectID),
      (d.erase id).contains id' = true ↔ id' ≠ id ∧ d.contains id' = true := by
    intro V d id'
    rw [Dict.contains, Dict.get?_erase, Dict.contains]
    split
    · next heq => exact ⟨fun hsome => absurd hsome Bool.false_ne_true, fun hne => absurd heq hne.1⟩
    · next hne => exact ⟨fun hsome => ⟨hne, hsome⟩, fun hsome => hsome.2⟩
  have hdeletions : ∀ id', cache.deletions id' ≤ (cache.delObject id).deletions id' := fun id' =>
    List.Sublist.count_le id' (List.sublist_append_left cache.deleted [id])
  refine ⟨fun id' hmem => ?_, h.clients, fun id' => ?_, fun id' hmem hplain => ?_, fun id' n hmem => ?_, h.once⟩
  · exact h.plain id' ((hcontains _ id').mp hmem).2
  · rw [ObjectCache.delObject, hcontains, hcontains, h.cachedFor]
  · by_cases hid : id' = id
    · subst hid
      have hle := h.before id' _ hmem
      rw [ObjectCache.deletions, ObjectCache.deletions, ObjectCache.delObject, List.count_append, List.count_singleton_self] at hle
      exact absurd hle (Nat.not_succ_le_self _)
    · have hzero : [id].count id' = 0 := List.count_eq_zero_of_not_mem (by simpa using hid)
      have hsame : (cache.delObject id).deletions id' = cache.deletions id' := by
        rw [ObjectCache.deletions, ObjectCache.deletions, ObjectCache.delObject, List.count_append, hzero, Nat.add_zero]
      rw [hsame] at hmem
      exact (hcontains _ id').mpr ⟨hid, h.cached id' hmem hplain⟩
  · exact Nat.le_trans (h.before id' n hmem) (hdeletions id')

theorem contains_afterCall (p : Platform Serializer Value) (cache : ObjectCache Serializer Value) (task : Task Value)
    (id : ObjectID) : (cache.afterCall p task).cachedObjects.contains id = true ↔ cache.cachedObjects.contains id = true := by
  unfold Dict.contains
  rw [← Dict.mem_keys, ← Dict.mem_keys]
  unfold afterCall
  split
  · exact Iff.rfl
  · rw [Dict.keys, Dict.keys, List.map_map]
    exact Iff.rfl

theorem afterCall_frame (p : Platform Serializer Value) (cache : ObjectCache Serializer Value) (task : Task Value) :
    (cache.afterCall p task).serializers = cache.serializers ∧ (cache.afterCall p task).cachedFor = cache.cachedFor ∧
      (cache.afterCall p task).deleted = cache.deleted ∧ (cache.afterCall p task).fetched = cache.fetched := by
  unfold afterCall
  split <;> exact ⟨rfl, rfl, rfl, rfl⟩

theorem Wf.afterCall (h : cache.Wf p) (task : Task Value) : (cache.afterCall p task).Wf p := by
  obtain ⟨hserializers, hcachedFor, hdeleted, hfetched⟩ := afterCall_frame p cache task
  have hdeletions : ∀ id, (cache.afterCall p task).deletions id = cache.deletions id := fun id => congrArg (List.count id) hdeleted
  refine ⟨fun id hcontains => ?_, ?_, fun id => ?_, fun id hmem hplain => ?_, fun id n hmem => ?_, ?_⟩
  · exact h.plain id ((contains_afterCall p cache task id).mp hcontains)
  · rw [hserializers]
    exact h.clients
  · rw [contains_afterCall, hcachedFor]
    exact h.cachedFor id
  · rw [hdeletions, hfetched] at hmem
    exact (contains_afterCall p cache task id).mpr (h.cached id hmem hplain)
  · rw [hdeletions]
    rw [hfetched] at hmem
    exact h.before id n hmem
  · rw [hfetched]
    exact h.once

theorem Wf.step (h : cache.Wf p) {message : Message Value} (hstep : cache.step p message = some cache') : cache'.Wf p := by
  cases message with
  | task task =>
    obtain ⟨filled, hfill, rfl⟩ := Option.map_eq_some_iff.mp hstep
    exact (foldlM_some (fun _ _ _ h hobject => h.cacheObject hobject) h hfill).afterCall task
  | delete objectIds =>
    cases hstep
    exact List.foldlRecOn objectIds ObjectCache.delObject h fun _ h id _ => h.delObject id

theorem wf_of_run {messages : List (Message Value)} (hrun : messages.foldlM (step p) empty = some cache) : cache.Wf p :=
  foldlM_some (fun _ _ _ h hstep => h.step hstep) .empty hrun

section Once

/-- The task names no serializer, and that of its client was not fetched since it was last deleted. -/
def First (p : Platform Serializer Value) (cache : ObjectCache Serializer Value) (message : Message Value) : Prop :=
  ∀ task, message = .task task → (∀ id ∈ task.objectIds, p.isSerializer id = false) ∧
    (p.generateSerializerObjectId task.source, cache.deletions (p.generateSerializerObjectId task.source)) ∉ cache.fetched

theorem nodup_cacheObject (h : cache.Wf p) (hnodup : cache.fetched.Nodup)
    (hid : p.isSerializer id = true → (id, cache.deletions id) ∉ cache.fetched)
    (hstep : cacheObject p client cache id = some cache') : cache'.fetched.Nodup := by
  have happend : (id, cache.deletions id) ∉ cache.fetched → (cache.fetched ++ [(id, cache.deletions id)]).Nodup := by
    intro hnew
    refine List.nodup_append.mpr ⟨hnodup, List.nodup_singleton _, ?_⟩
    rintro entry hold _ hlast rfl
    rw [List.mem_singleton.mp hlast] at hold
    exact hnew hold
  cases hserializer : p.isSerializer id with
  | true =>
    rw [cacheObject_serializer h hserializer] at hstep
    obtain ⟨serializer, -, rfl⟩ := Option.map_eq_some_iff.mp hstep
    exact happend (hid hserializer)
  | false =>
    cases hcached : cache.cachedObjects.contains id with
    | true =>
      rw [cacheObject_cached h hcached] at hstep
      cases hstep
      exact hnodup
    | false =>
      rw [cacheObject_new h hcached hserializer] at hstep
      cases hstep
      exact happend (not_fetched h hcached hserializer)

theorem nodup_cacheObjects {ids : List ObjectID} (h : cache.Wf p) (hnodup : cache.fetched.Nodup)
    (hids : ∀ id ∈ ids, p.isSerializer id = false) (hstep : ids.foldlM (cacheObject p client) cache = some cache') :
    cache'.fetched.Nodup := by
  induction ids generalizing cache with
  | nil =>
    cases hstep
    exact hnodup
  | cons id ids ih =>
    rw [List.foldlM_cons] at hstep
    obtain ⟨next, hnext, hstep⟩ := Option.bind_eq_some_iff.mp hstep
    have hplain := hids id List.mem_cons_self
    have hnodup' := nodup_cacheObject h hnodup (fun hserializer => by rw [hplain] at hserializer; cases hserializer) hnext
    exact ih (h.cacheObject hnext) hnodup' (fun id' hid' => hids id' (List.mem_cons_of_mem _ hid')) hstep

theorem fetched_foldl_delObject (objectIds : List ObjectID) (cache : ObjectCache Serializer Value) :
    (objectIds.foldl ObjectCache.delObject cache).fetched = cache.fetched := by
  induction objectIds generalizing cache with
  | nil => rfl
  | cons id objectIds ih => exact ih (cache.delObject id)

theorem nodup_step (h : cache.Wf p) (hnodup : cache.fetched.Nodup) {message : Message Value} (hfirst : cache.First p message)
    (hstep : cache.step p message = some cache') : cache'.fetched.Nodup := by
  cases message with
  | task task =>
    obtain ⟨filled, hfill, rfl⟩ := Option.map_eq_some_iff.mp hstep
    obtain ⟨hplain, hnew⟩ := hfirst task rfl
    rw [(afterCall_frame p filled task).2.2.2]
    rw [cacheRequiredObjectIds, List.foldlM_cons] at hfill
    obtain ⟨next, hnext, hfill⟩ := Option.bind_eq_some_iff.mp hfill
    exact nodup_cacheObjects (h.cacheObject hnext) (nodup_cacheObject h hnodup (fun _ => hnew) hnext) hplain hfill
  | delete objectIds =>
    cases hstep
    rw [fetched_foldl_delObject]
    exact hnodup

end Once

section Faithful

/-- The task names objects, which are cached for its client with the serializer that it has now if they
are cached at all; the serializer can be loaded; no payload is itself an exception of the cache; and user
code leaves the objects as they are. -/
structure Own (p : Platform Serializer Value) (cache : ObjectCache Serializer Value) (task : Task Value) : Prop where
  plain : ∀ id ∈ task.objectIds, p.isSerializer id = false
  loads : (p.loads (cache.ownPayload p task.source)).isSome = true
  reader : ∀ id ∈ task.objectIds, ∀ reader, cache.cachedFor.get? id = some reader →
    reader = (task.source, cache.deletions (p.generateSerializerObjectId task.source))
  values : ∀ serializer, p.loads (cache.ownPayload p task.source) = some serializer → ∀ id ∈ task.objectIds,
    ∀ value, cache.stored p serializer id = .ok value → p.isDeserializeObjectError value = false
  unchanged : ∀ id value, task.change id value = value

/-- Every object is what its payload is for the client that it was read for. -/
def Faithful (p : Platform Serializer Value) (cache : ObjectCache Serializer Value) : Prop :=
  ∀ id reader, cache.cachedFor.get? id = some reader → ∃ serializer,
    p.loads (p.storage (p.generateSerializerObjectId reader.1) reader.2) = some serializer ∧
      cache.cachedObject id = cache.stored p serializer id

theorem cachedObject_of_get? {content : Except DeserializeObjectError Value} (h : cache.cachedObjects.get? id = some content) :
    cache.cachedObject id = content.mapError .deserialize := by
  rw [cachedObject, h]
  cases content <;> rfl

/-- An object that is no exception of the cache is handed out as it is cached. -/
theorem getObject_of_value (h : ∀ value, cache.cachedObject id = .ok value → p.isDeserializeObjectError value = false) :
    cache.getObject p id = cache.cachedObject id := by
  rw [getObject]
  cases hobject : cache.cachedObject id with
  | error error => rfl
  | ok value =>
    have hvalue := h value hobject
    change (if p.isDeserializeObjectError value then _ else _) = _
    rw [hvalue]
    rfl

theorem deserialized_eq {serializer : Serializer} (h : cache.serializers.get? client.bytes = some serializer) (id : ObjectID) :
    (cache.deserialized p client id).mapError .deserialize = cache.stored p serializer id := by
  rw [deserialized, deserialize, h, stored]
  dsimp only
  cases p.deserialize serializer (p.storage id (cache.deletions id)) <;> rfl

/-- What the loop over the objects of a task keeps: the serializer of its client, and that the objects
are read for this client. -/
structure Filling (p : Platform Serializer Value) (client : ClientID) (serializer : Serializer)
    (cache : ObjectCache Serializer Value) : Prop where
  wf : cache.Wf p
  faithful : cache.Faithful p
  loads : p.loads (cache.ownPayload p client) = some serializer
  serializer : cache.serializers.get? client.bytes = some serializer

theorem Filling.new {serializer : Serializer} (h : Filling p client serializer cache)
    (hnew : cache.cachedObjects.contains id = false) (hid : p.isSerializer id = false) :
    Filling p client serializer { cache with
      cachedObjects := cache.cachedObjects.set id (cache.deserialized p client id)
      cachedFor := cache.cachedFor.set id (client, cache.deletions (p.generateSerializerObjectId client))
      fetched := cache.fetched ++ [(id, cache.deletions id)] } where
  wf := h.wf.new hnew hid _ _
  faithful := fun id' reader hreader => by
    rcases Dict.get?_set_cases hreader with ⟨rfl, rfl⟩ | hold
    · refine ⟨serializer, h.loads, ?_⟩
      rw [cachedObject_of_get? (Dict.get?_set_self _ _ _), deserialized_eq h.serializer]
      rfl
    · have hne : id' ≠ id := by
        rintro rfl
        have hcontains := (h.wf.cachedFor id').mpr (by rw [Dict.contains, hold]; rfl)
        rw [hnew] at hcontains
        cases hcontains
      obtain ⟨serializer', hloads, hobject⟩ := h.faithful id' reader hold
      refine ⟨serializer', hloads, ?_⟩
      rw [cachedObject, Dict.get?_set_ne _ hne]
      exact hobject
  loads := h.loads
  serializer := h.serializer

theorem filling_cacheObjects {serializer : Serializer} {ids : List ObjectID} (h : Filling p client serializer cache)
    (hids : ∀ id ∈ ids, p.isSerializer id = false)
    (hreaders : ∀ id ∈ ids, ∀ reader, cache.cachedFor.get? id = some reader →
      reader = (client, cache.deletions (p.generateSerializerObjectId client))) :
    ∃ cache', ids.foldlM (cacheObject p client) cache = some cache' ∧ Filling p client serializer cache' ∧
      cache'.deleted = cache.deleted ∧
      (∀ id reader, cache.cachedFor.get? id = some reader → cache'.cachedFor.get? id = some reader) ∧
      ∀ id ∈ ids, cache'.cachedFor.get? id = some (client, cache.deletions (p.generateSerializerObjectId client)) := by
  induction ids generalizing cache with
  | nil => exact ⟨cache, rfl, h, rfl, fun _ _ hreader => hreader, fun _ hid => absurd hid List.not_mem_nil⟩
  | cons id ids ih =>
    have hrest : ∀ id ∈ ids, p.isSerializer id = false := fun id' hid' => hids id' (List.mem_cons_of_mem _ hid')
    cases hcached : cache.cachedObjects.contains id with
    | true =>
      obtain ⟨cache', hstep, hfilling, hdeleted, hkept, hall⟩ :=
        ih h hrest fun id' hid' => hreaders id' (List.mem_cons_of_mem _ hid')
      refine ⟨cache', ?_, hfilling, hdeleted, hkept, ?_⟩
      · rw [List.foldlM_cons, cacheObject_cached h.wf hcached]
        exact hstep
      · rintro id' (_ | ⟨_, hid'⟩)
        · obtain ⟨reader, hreader⟩ := Option.isSome_iff_exists.mp ((h.wf.cachedFor id).mp hcached)
          rw [hkept id reader hreader, hreaders id List.mem_cons_self reader hreader]
        · exact hall id' hid'
    | false =>
      have hplain := hids id List.mem_cons_self
      have hnone : cache.cachedFor.get? id = none := by
        refine Option.eq_none_iff_forall_not_mem.mpr fun reader hreader => ?_
        have hcontains := (h.wf.cachedFor id).mpr (by rw [Dict.contains, hreader]; rfl)
        rw [hcached] at hcontains
        cases hcontains
      obtain ⟨cache', hstep, hfilling, hdeleted, hkept, hall⟩ := ih (h.new hcached hplain) hrest (by
        intro id' hid' reader hreader
        rcases Dict.get?_set_cases hreader with ⟨-, rfl⟩ | hold
        · rfl
        · exact hreaders id' (List.mem_cons_of_mem _ hid') reader hold)
      refine ⟨cache', ?_, hfilling, hdeleted, fun id' reader hreader => ?_, ?_⟩
      · rw [List.foldlM_cons, cacheObject_new h.wf hcached hplain]
        exact hstep
      · refine hkept id' reader ?_
        rw [Dict.get?_set_ne _ (by rintro rfl; rw [hnone] at hreader; cases hreader)]
        exact hreader
      · rintro id' (_ | ⟨_, hid'⟩)
        · exact hkept id _ (Dict.get?_set_self _ _ _)
        · exact hall id' hid'

/-- The serializer comes first. -/
theorem Faithful.serializer (hwf : cache.Wf p) (h : cache.Faithful p) {serializer : Serializer}
    (hloads : p.loads (cache.ownPayload p client) = some serializer) :
    ∃ next, cacheObject p client cache (p.generateSerializerObjectId client) = some next ∧ Filling p client serializer next ∧
      next.deleted = cache.deleted ∧ next.cachedFor = cache.cachedFor := by
  have hid := p.isSerializer_generateSerializerObjectId client
  refine ⟨_, ?_, ⟨hwf.serializer hid serializer, h, hloads, Dict.get?_set_self _ _ _⟩, rfl, rfl⟩
  rw [cacheObject_serializer hwf hid]
  exact congrArg (Option.map _) hloads

theorem afterCall_of_unchanged {task : Task Value} (h : ∀ id value, task.change id value = value) :
    cache.afterCall p task = cache := by
  have hmap : (fun entry : ObjectID × Except DeserializeObjectError Value => (entry.1, entry.2.map (task.change entry.1))) = fun e => e := by
    funext entry
    obtain ⟨id, content⟩ := entry
    rw [funext (h id)]
    cases content <;> rfl
  unfold afterCall
  split
  · rfl
  · simp only [hmap, List.map_id']

/-- A task with its own objects is called with what the storage holds for it. -/
theorem passed_of_own (hwf : cache.Wf p) (h : cache.Faithful p) {task : Task Value} (hown : cache.Own p task) :
    ∃ filled, cache.cacheRequiredObjectIds p task = some filled ∧ filled.Wf p ∧ filled.Faithful p ∧
      cache.expected p task = some (filled.passed p task) := by
  obtain ⟨serializer, hloads⟩ := Option.isSome_iff_exists.mp hown.loads
  obtain ⟨next, hnext, hfilling, hdeleted, hcachedFor⟩ := h.serializer hwf hloads
  have hsame : ∀ id, next.deletions id = cache.deletions id := fun id => congrArg (List.count id) hdeleted
  obtain ⟨filled, hfill, hfilled, hdeleted', -, hreaders⟩ := filling_cacheObjects hfilling hown.plain (by
    rw [hcachedFor, hsame]
    exact hown.reader)
  have hsame' : ∀ id, filled.deletions id = cache.deletions id := fun id =>
    (congrArg (List.count id) hdeleted').trans (hsame id)
  have hcached : ∀ id ∈ task.objectIds, filled.cachedObject id = cache.stored p serializer id := by
    intro id hid
    obtain ⟨serializer', hloads', hobject⟩ := hfilled.faithful id _ (hreaders id hid)
    have heq : serializer' = serializer := by
      rw [hsame] at hloads'
      exact Option.some.inj (hloads'.symm.trans hloads)
    rw [hobject, heq, stored, stored, hsame']
  have hobject : ∀ id ∈ task.objectIds, filled.getObject p id = cache.stored p serializer id := by
    intro id hid
    rw [getObject_of_value, hcached id hid]
    rw [hcached id hid]
    exact hown.values serializer hloads id hid
  refine ⟨filled, ?_, hfilled.wf, hfilled.faithful, ?_⟩
  · rw [cacheRequiredObjectIds, List.foldlM_cons, hnext]
    exact hfill
  · have hargs : task.functionArgs.mapM (filled.getObject p) = task.functionArgs.mapM (cache.stored p serializer) :=
      mapM_congr_forall₂ (List.forall₂_same.mpr fun id hid => hobject id (List.mem_cons_of_mem _ hid))
    rw [expected, hloads, passed, hobject task.funcObjectId List.mem_cons_self, hargs]
    rfl

def OwnMessage (p : Platform Serializer Value) (cache : ObjectCache Serializer Value) (message : Message Value) : Prop :=
  ∀ task, message = .task task → cache.Own p task

theorem Faithful.delObject (h : cache.Faithful p) (id : ObjectID) : (cache.delObject id).Faithful p := by
  intro id' reader hreader
  rw [ObjectCache.delObject, Dict.get?_erase] at hreader
  split at hreader
  · cases hreader
  · next hne =>
    obtain ⟨serializer, hloads, hobject⟩ := h id' reader hreader
    have hzero : [id].count id' = 0 := List.count_eq_zero_of_not_mem (by simpa using hne)
    have hsame : (cache.delObject id).deletions id' = cache.deletions id' := by
      rw [ObjectCache.deletions, ObjectCache.deletions, ObjectCache.delObject, List.count_append, hzero, Nat.add_zero]
    refine ⟨serializer, hloads, ?_⟩
    rw [stored, hsame, cachedObject, ObjectCache.delObject, Dict.get?_erase_ne _ hne]
    exact hobject

theorem Faithful.step (hwf : cache.Wf p) (h : cache.Faithful p) {message : Message Value} (hown : cache.OwnMessage p message)
    (hstep : cache.step p message = some cache') : cache'.Faithful p := by
  cases message with
  | task task =>
    obtain ⟨filled, hfill, -, hfaithful, -⟩ := passed_of_own hwf h (hown task rfl)
    rw [ObjectCache.step, hfill, Option.map_some, afterCall_of_unchanged (hown task rfl).unchanged] at hstep
    cases hstep
    exact hfaithful
  | delete objectIds =>
    cases hstep
    exact (List.foldlRecOn objectIds ObjectCache.delObject (motive := fun c => c.Wf p ∧ c.Faithful p) ⟨hwf, h⟩
      fun _ h id _ => ⟨h.1.delObject id, h.2.delObject id⟩).2

end Faithful

/-- In every run an object is fetched once between two deletions. So is a serializer, if its client
sends one task between two deletions of it. A task is called with its payloads if it has its own
objects and so have the tasks before it. -/
theorem cache_faithful (messages : List (Message Value)) (hrun : messages.foldlM (step p) empty = some cache) :
    (cache.fetched.filter fun entry => p.isSerializer entry.1 = false).Nodup ∧
      (AlongSome (step p) (First p) empty messages → cache.fetched.Nodup) ∧
      (AlongSome (step p) (OwnMessage p) empty messages → ∀ task, cache.Own p task →
        ∃ filled, cache.cacheRequiredObjectIds p task = some filled ∧ cache.expected p task = some (filled.passed p task)) := by
  refine ⟨(wf_of_run hrun).once, fun hfirst => ?_, fun hown task htask => ?_⟩
  · exact (hfirst.foldlM (I := fun c => c.Wf p ∧ c.fetched.Nodup)
      (fun _ _ _ h hok hstep => ⟨h.1.step hstep, nodup_step h.1 h.2 hok hstep⟩) ⟨.empty, List.nodup_nil⟩ hrun).2
  · obtain ⟨hwf, hfaithful⟩ := hown.foldlM (I := fun c => c.Wf p ∧ c.Faithful p)
      (fun _ _ _ h hok hstep => ⟨h.1.step hstep, h.2.step h.1 hok hstep⟩) ⟨.empty, nofun⟩ hrun
    obtain ⟨filled, hfill, -, -, hpassed⟩ := passed_of_own hwf hfaithful htask
    exact ⟨filled, hfill, hpassed⟩

/-- `Client|` and a tag that repeats one digit. -/
def clientOf (digit : UInt8) : ClientID where
  bytes := [67, 108, 105, 101, 110, 116, 124] ++ List.replicate 32 digit
  long := by simp

/-- Two clients with a serializer each, by the first byte of its payload. -/
def twoClients : Platform Nat Nat where
  md5 bytes :=
    if bytes = (clientOf 48).bytes then [169, 210, 153, 35, 6, 216, 241, 213, 127, 141, 113, 62, 189, 161, 52, 190]
    else if bytes = (clientOf 49).bytes then [136, 136, 178, 38, 43, 142, 123, 197, 219, 190, 235, 11, 149, 33, 42, 107]
    else [132, 246, 251, 124, 213, 205, 83, 181, 103, 148, 137, 162, 147, 150, 68, 143]
  length_md5 bytes := by
    split
    · rfl
    · split <;> rfl
  loads payload := payload.head?.map UInt8.toNat
  deserialize serializer payload := .ok (serializer + payload.length)
  isDeserializeObjectError _ := false
  storage id _ := if id.bytes.head? = some 169 then [1] else [2]

def taskOf (client : ClientID) : Task Nat where
  source := client
  funcObjectId := ⟨List.replicate 32 0, List.length_replicate⟩
  functionArgs := []
  change _ value := value

theorem cache_faithful_first_task : ∃ cache filled : ObjectCache Nat Nat,
    [.delete []].foldlM (step twoClients) empty = some cache ∧
      cache.cacheRequiredObjectIds twoClients (taskOf (clientOf 48)) = some filled ∧
      cache.expected twoClients (taskOf (clientOf 48)) = some (filled.passed twoClients (taskOf (clientOf 48))) := by
  have hown : AlongSome (step twoClients) (OwnMessage twoClients) empty [.delete []] := ⟨nofun, fun _ _ => trivial⟩
  obtain ⟨-, -, hfaithful⟩ := cache_faithful [.delete []] (p := twoClients) rfl
  obtain ⟨filled, hfill, hpassed⟩ := hfaithful hown (taskOf (clientOf 48)) ⟨by decide, by decide, nofun, fun _ _ _ _ _ _ => rfl, fun _ _ => rfl⟩
  exact ⟨_, filled, rfl, hfill, hpassed⟩

-- the second task fetches the serializer again; the other client's task gets the first client's object
theorem serializer_fetched_twice :
    (∃ cache : ObjectCache Nat Nat, [.task (taskOf (clientOf 48)), .task (taskOf (clientOf 48))].foldlM (step twoClients) empty = some cache ∧
      ¬ cache.fetched.Nodup) ∧
    ∃ cache filled : ObjectCache Nat Nat, [.task (taskOf (clientOf 48))].foldlM (step twoClients) empty = some cache ∧
      cache.cacheRequiredObjectIds twoClients (taskOf (clientOf 49)) = some filled ∧
      cache.expected twoClients (taskOf (clientOf 49)) ≠ some (filled.passed twoClients (taskOf (clientOf 49))) := by
  refine ⟨⟨_, rfl, ?_⟩, ⟨_, _, rfl, rfl, ?_⟩⟩
  · decide
  · intro h
    cases h

end ObjectCache

end Scaler.Processor
