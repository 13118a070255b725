import Scaler.ObjectStorage.ObjectManager

/-! The bookkeeping of `ObjectManager`: use counts, the two maps and the byte total
agree, whatever the hash function. -/

namespace Scaler.ObjectStorage

open Collections

theorem subSize_of_le {a b : Nat} (h : b ≤ a) : subSize a b = a - b := if_pos h

def ManagedObject.bytes (o : ManagedObject) : Nat := (o.payload.map List.length).getD 0

namespace ObjectManager

variable {m m' : ObjectManager} {id : ObjectID} {hash : ObjectHash} {object : ManagedObject}

/-- The ids that have the hash. -/
def users (m : ObjectManager) (hash : ObjectHash) : Nat :=
  m.objectIDToHash.countValues fun h => h = hash

structure Accounted (m : ObjectManager) : Prop where
  counted : ∀ {hash object}, m.hashToObject.get? hash = some object →
    object.useCount = m.users hash ∧ 1 ≤ object.useCount ∧ object.payload.isSome = true
  present : ∀ {id hash}, m.objectIDToHash.get? id = some hash →
    (m.hashToObject.get? hash).isSome = true
  bytes : m.totalObjectsBytes = m.hashToObject.sumValues ManagedObject.bytes

theorem accounted_empty : empty.Accounted := by
  refine ⟨fun h => ?_, fun h => ?_, rfl⟩
  · simp [empty] at h
  · simp [empty] at h

/-- No payload is larger than the total. -/
theorem Accounted.bytes_le (h : m.Accounted) (ho : m.hashToObject.get? hash = some object) :
    object.bytes ≤ m.totalObjectsBytes := by
  have := Dict.sumValues_erase m.hashToObject ManagedObject.bytes ho
  rw [h.bytes]
  omega

/-- What is left of `m` when `id` is not used any more. -/
structure Dropped (m : ObjectManager) (id : ObjectID) (m' : ObjectManager) : Prop where
  accounted : m'.Accounted
  ids : m'.objectIDToHash = m.objectIDToHash.erase id
  payload : ∀ {hash object}, m'.hashToObject.get? hash = some object →
    ∃ o, m.hashToObject.get? hash = some o ∧ o.payload = object.payload

theorem users_erase (h : m.objectIDToHash.get? id = some hash) (k : ObjectHash) :
    (m.objectIDToHash.erase id).countValues (fun h => h = k) + (if hash = k then 1 else 0) =
      m.users k := by
  have := Dict.countValues_erase m.objectIDToHash (fun h => decide (h = k)) h
  simpa [users] using this

theorem users_set (h : m.objectIDToHash.get? id = none) (k : ObjectHash) :
    (m.objectIDToHash.set id hash).countValues (fun h => h = k) =
      m.users k + (if hash = k then 1 else 0) := by
  have := Dict.countValues_set_absent m.objectIDToHash (v := hash) (fun h => decide (h = k)) h
  simpa [users] using this

theorem Accounted.dropped_last (h : m.Accounted) (hi : m.objectIDToHash.get? id = some hash)
    (ho : m.hashToObject.get? hash = some object) (hc : object.useCount = 1) :
    Dropped m id
      { objectIDToHash := m.objectIDToHash.erase id
        hashToObject := m.hashToObject.erase hash
        totalObjectsBytes := m.totalObjectsBytes - object.bytes } := by
  have hu : ∀ k, (m.objectIDToHash.erase id).countValues (fun h => h = k) +
      (if hash = k then 1 else 0) = m.users k := users_erase hi
  refine ⟨⟨fun {k o} hk => ?_, fun {j k} hk => ?_, ?_⟩, rfl, fun {k o} hk => ?_⟩
  · simp only [Dict.get?_erase] at hk
    split at hk
    · cases hk
    · next hne =>
      obtain ⟨hx, hp⟩ := h.counted hk
      have := hu k
      rw [if_neg (Ne.symm hne), Nat.add_zero] at this
      exact ⟨hx.trans this.symm, hp⟩
  · simp only [Dict.get?_erase] at hk ⊢
    have hj : m.objectIDToHash.get? j = some k := by
      split at hk
      · cases hk
      · exact hk
    by_cases hne : k = hash
    · subst hne
      have hz := hu k
      have hx := (h.counted ho).1
      rw [if_pos rfl, ← hx, hc] at hz
      have hpos : 0 < (m.objectIDToHash.erase id).countValues fun h => h = k :=
        Dict.countValues_pos.mpr ⟨j, k, by rwa [Dict.get?_erase], by simp⟩
      omega
    · rw [if_neg hne]
      exact h.present hj
  · have hs := Dict.sumValues_erase m.hashToObject ManagedObject.bytes ho
    have hb := h.bytes
    change m.totalObjectsBytes - object.bytes = (m.hashToObject.erase hash).sumValues _
    omega
  · simp only [Dict.get?_erase] at hk
    split at hk
    · cases hk
    · exact ⟨o, hk, rfl⟩

theorem Accounted.dropped_shared (h : m.Accounted) (hi : m.objectIDToHash.get? id = some hash)
    (ho : m.hashToObject.get? hash = some object) (hc : object.useCount ≠ 1) :
    Dropped m id
      { m with
        objectIDToHash := m.objectIDToHash.erase id
        hashToObject := m.hashToObject.set hash { object with useCount := object.useCount - 1 } } := by
  have hu : ∀ k, (m.objectIDToHash.erase id).countValues (fun h => h = k) +
      (if hash = k then 1 else 0) = m.users k := users_erase hi
  obtain ⟨hx, hpos, hp⟩ := h.counted ho
  refine ⟨⟨fun {k o} hk => ?_, fun {j k} hk => ?_, ?_⟩, rfl, fun {k o} hk => ?_⟩
  · simp only [Dict.get?_set] at hk
    have := hu k
    split at hk
    · next he =>
      subst he
      cases hk
      rw [if_pos rfl] at this
      refine ⟨?_, ?_, hp⟩
      · change object.useCount - 1 = (m.objectIDToHash.erase id).countValues _
        omega
      · change 1 ≤ object.useCount - 1
        omega
    · next hne =>
      obtain ⟨hx, hp⟩ := h.counted hk
      rw [if_neg (Ne.symm hne), Nat.add_zero] at this
      exact ⟨hx.trans this.symm, hp⟩
  · simp only [Dict.get?_erase] at hk
    simp only [Dict.get?_set]
    split at hk
    · cases hk
    · split
      · rfl
      · exact h.present hk
  · have hs := Dict.sumValues_set_present m.hashToObject
      (v := { object with useCount := object.useCount - 1 }) ManagedObject.bytes ho
    have hb := h.bytes
    have he : ManagedObject.bytes { object with useCount := object.useCount - 1 } = object.bytes := rfl
    change m.totalObjectsBytes = (m.hashToObject.set hash _).sumValues _
    omega
  · simp only [Dict.get?_set] at hk
    split at hk
    · next he =>
      subst he
      cases hk
      exact ⟨object, ho, rfl⟩
    · exact ⟨o, hk, rfl⟩

theorem Accounted.dropped_none (h : m.Accounted) (hi : m.objectIDToHash.get? id = none) :
    Dropped m id m :=
  ⟨h, (Dict.erase_of_get?_none hi).symm, fun hk => ⟨_, hk, rfl⟩⟩

theorem deleteObject_spec (h : m.Accounted) (id : ObjectID) :
    ∃ m', m.deleteObject id = some (m.hasObject id, m') ∧ Dropped m id m' := by
  cases hi : m.objectIDToHash.get? id with
  | none =>
    refine ⟨m, ?_, h.dropped_none hi⟩
    simp [deleteObject, hi, hasObject, Dict.contains]
  | some hash =>
    obtain ⟨object, ho⟩ := Option.isSome_iff_exists.mp (h.present hi)
    obtain ⟨_, hpos, hp⟩ := h.counted ho
    obtain ⟨payload, hp⟩ := Option.isSome_iff_exists.mp hp
    have hhas : m.hasObject id = true := by
      simp [hasObject, Dict.contains, hi]
    by_cases hc : object.useCount = 1
    · refine ⟨_, ?_, h.dropped_last hi ho hc⟩
      have hbytes : object.bytes = payload.length := by
        simp [ManagedObject.bytes, hp]
      have hle : payload.length ≤ m.totalObjectsBytes := hbytes ▸ h.bytes_le ho
      have hlt : object.useCount - 1 < 1 := by omega
      simp only [deleteObject, hi, ho, hhas, subSize_of_le hpos, hlt, dropObject, hp, Option.map_some,
        subSize_of_le hle, hbytes, Option.bind_eq_bind, Option.bind_some, if_true]
    · refine ⟨_, ?_, h.dropped_shared hi ho hc⟩
      have hge : ¬ object.useCount - 1 < 1 := by omega
      simp only [deleteObject, hi, ho, hhas, subSize_of_le hpos, hge, Option.bind_eq_bind,
        Option.bind_some, if_false]

theorem override_spec (h : m.Accounted) (id : ObjectID) :
    ∃ m', m.override id = some m' ∧ Dropped m id m' := by
  obtain ⟨m', he, hd⟩ := deleteObject_spec h id
  by_cases hi : m.hasObject id = true
  · exact ⟨m', by simp [override, hi, he], hd⟩
  · refine ⟨m, by simp [override, hi], h.dropped_none ?_⟩
    simpa [hasObject, Dict.contains] using hi

theorem Dropped.get?_self (h : Dropped m id m') : m'.objectIDToHash.get? id = none := by
  rw [h.ids, Dict.get?_erase_self]

/-- An unused id gets a hash that the table has. -/
theorem Accounted.link (h : m.Accounted) (hi : m.objectIDToHash.get? id = none)
    (ho : m.hashToObject.get? hash = some object) :
    Accounted
      { m with
        objectIDToHash := m.objectIDToHash.set id hash
        hashToObject := m.hashToObject.set hash { object with useCount := object.useCount + 1 } } := by
  have hu : ∀ k, (m.objectIDToHash.set id hash).countValues (fun h => h = k) =
      m.users k + (if hash = k then 1 else 0) := users_set hi
  obtain ⟨hx, hpos, hp⟩ := h.counted ho
  refine ⟨fun {k o} hk => ?_, fun {j k} hk => ?_, ?_⟩
  · have := hu k
    simp only [Dict.get?_set] at hk
    split at hk
    · next he =>
      subst he
      cases hk
      rw [if_pos rfl] at this
      exact ⟨(congrArg (· + 1) hx).trans this.symm, Nat.le_add_left 1 _, hp⟩
    · next hne =>
      obtain ⟨hx, hp⟩ := h.counted hk
      rw [if_neg (Ne.symm hne), Nat.add_zero] at this
      exact ⟨hx.trans this.symm, hp⟩
  · simp only [Dict.get?_set] at hk ⊢
    split
    · rfl
    · next hne =>
      split at hk
      · cases hk
        exact absurd rfl hne
      · exact h.present hk
  · have hs := Dict.sumValues_set_present m.hashToObject
      (v := { object with useCount := object.useCount + 1 }) ManagedObject.bytes ho
    have hb := h.bytes
    have he : ManagedObject.bytes { object with useCount := object.useCount + 1 } = object.bytes := rfl
    change m.totalObjectsBytes = (m.hashToObject.set hash _).sumValues _
    omega

/-- An unused id gets a hash of its own. -/
theorem Accounted.insert (h : m.Accounted) (hi : m.objectIDToHash.get? id = none)
    (ho : m.hashToObject.get? hash = none) (payload : ObjectPayload) :
    Accounted
      { objectIDToHash := m.objectIDToHash.set id hash
        hashToObject := m.hashToObject.set hash ⟨1, some payload⟩
        totalObjectsBytes := m.totalObjectsBytes + payload.length } := by
  have hu : ∀ k, (m.objectIDToHash.set id hash).countValues (fun h => h = k) =
      m.users k + (if hash = k then 1 else 0) := users_set hi
  have hz : m.users hash = 0 := by
    refine Nat.eq_zero_of_not_pos fun hpos => ?_
    obtain ⟨j, k, hj, hk⟩ := Dict.countValues_pos.mp hpos
    have := h.present hj
    rw [of_decide_eq_true hk, ho] at this
    cases this
  refine ⟨fun {k o} hk => ?_, fun {j k} hk => ?_, ?_⟩
  · have := hu k
    simp only [Dict.get?_set] at hk
    split at hk
    · next he =>
      subst he
      cases hk
      rw [if_pos rfl, hz] at this
      exact ⟨this.symm, Nat.le_refl 1, rfl⟩
    · next hne =>
      obtain ⟨hx, hp⟩ := h.counted hk
      rw [if_neg (Ne.symm hne), Nat.add_zero] at this
      exact ⟨hx.trans this.symm, hp⟩
  · simp only [Dict.get?_set] at hk ⊢
    split
    · rfl
    · next hne =>
      split at hk
      · cases hk
        exact absurd rfl hne
      · exact h.present hk
  · have hs := Dict.sumValues_set_absent m.hashToObject (v := ⟨1, some payload⟩) ManagedObject.bytes ho
    have hb := h.bytes
    have he : ManagedObject.bytes ⟨1, some payload⟩ = payload.length := rfl
    change m.totalObjectsBytes + payload.length = (m.hashToObject.set hash _).sumValues _
    omega

theorem setObject_accounted (h : m.Accounted) (computePayloadHash : ObjectPayload → ObjectHash)
    (id : ObjectID) (payload : ObjectPayload) :
    ∃ r m', m.setObject computePayloadHash id payload = some (r, m') ∧ m'.Accounted := by
  obtain ⟨n, hn, hd⟩ := override_spec h id
  cases ho : n.hashToObject.get? (computePayloadHash payload) with
  | none =>
    refine ⟨some payload, _, ?_, hd.accounted.insert hd.get?_self ho payload⟩
    simp [setObject, hn, ho]
  | some object =>
    refine ⟨object.payload, _, ?_, hd.accounted.link hd.get?_self ho⟩
    simp [setObject, hn, ho]

/-- Deleting the new id leaves the object of another one in the table. -/
theorem Dropped.kept {originalID newID : ObjectID} (hd : Dropped m newID m')
    (ho : m.objectIDToHash.get? originalID = some hash) (hne : newID ≠ originalID) :
    ∃ object, m'.hashToObject.get? hash = some object := by
  have hk : m'.objectIDToHash.get? originalID = some hash := by
    rw [hd.ids, Dict.get?_erase_ne _ (Ne.symm hne)]
    exact ho
  exact Option.isSome_iff_exists.mp (hd.accounted.present hk)

theorem duplicateObject_accounted (h : m.Accounted) (freed : ObjectHash)
    {originalID newID : ObjectID} (hne : newID ≠ originalID) :
    ∃ r m', m.duplicateObject freed originalID newID = some (r, m') ∧ m'.Accounted := by
  cases hi : m.objectIDToHash.get? originalID with
  | none => exact ⟨none, m, by simp [duplicateObject, hi], h⟩
  | some hash =>
    obtain ⟨n, hn, hd⟩ := override_spec h newID
    obtain ⟨object, ho⟩ := hd.kept hi hne
    refine ⟨object.payload, _, ?_, hd.accounted.link hd.get?_self ho⟩
    simp [duplicateObject, hi, hn, if_neg hne, ho]

theorem step_accounted (h : m.Accounted) (computePayloadHash : ObjectPayload → ObjectHash)
    (freed : ObjectHash) {call : Call}
    (hd : ∀ a, call ≠ .duplicateObject a a) :
    ∃ r m', m.step computePayloadHash freed call = some (r, m') ∧ m'.Accounted := by
  cases call with
  | setObject id payload =>
    obtain ⟨r, m', he, hm⟩ := setObject_accounted h computePayloadHash id payload
    exact ⟨.object r, m', by simp [step, he], hm⟩
  | getObject id =>
    cases hi : m.objectIDToHash.get? id with
    | none => exact ⟨.object none, m, by simp [step, getObject, hi], h⟩
    | some hash =>
      obtain ⟨object, ho⟩ := Option.isSome_iff_exists.mp (h.present hi)
      exact ⟨.object object.payload, m, by simp [step, getObject, hi, ho], h⟩
  | deleteObject id =>
    obtain ⟨m', he, hm⟩ := deleteObject_spec h id
    exact ⟨.deleted (m.hasObject id), m', by simp [step, he], hm.accounted⟩
  | duplicateObject a b =>
    have hne : b ≠ a := by
      rintro rfl
      exact hd b rfl
    obtain ⟨r, m', he, hm⟩ := duplicateObject_accounted h freed hne
    exact ⟨.object r, m', by simp [step, he], hm⟩
  | size => exact ⟨_, m, rfl, h⟩

theorem run_accounted (h : m.Accounted) (computePayloadHash : ObjectPayload → ObjectHash)
    (freed : Nat → ObjectHash) {calls : List Call} (hd : ∀ a, .duplicateObject a a ∉ calls) :
    ∃ rs m', m.run computePayloadHash freed calls = some (rs, m') ∧ m'.Accounted := by
  induction calls generalizing m with
  | nil => exact ⟨[], m, rfl, h⟩
  | cons call calls ih =>
    obtain ⟨r, n, he, hn⟩ := step_accounted h computePayloadHash (freed calls.length)
      (fun a ha => hd a (ha ▸ List.mem_cons_self))
    obtain ⟨rs, m', he', hm⟩ := ih hn fun a ha => hd a (List.mem_cons_of_mem _ ha)
    exact ⟨r :: rs, m', by simp [run, he, he'], hm⟩

/-- However calls are mixed, no call ends the process, every entry of the table is there
for the ids that use it, and the byte total is what the table stores, so that taking a
payload off it never wraps. -/
theorem objectManager_accounted (computePayloadHash : ObjectPayload → ObjectHash)
    (freed : Nat → ObjectHash) (calls : List Call) (hd : ∀ a, .duplicateObject a a ∉ calls) :
    ∃ rs m, empty.run computePayloadHash freed calls = some (rs, m) ∧
      (∀ hash object, m.hashToObject.get? hash = some object →
        (∃ payload, object.payload = some payload ∧ payload.length ≤ m.totalObjectsBytes) ∧
        object.useCount = m.objectIDToHash.countValues (fun h => h = hash) ∧ 1 ≤ object.useCount) ∧
      (∀ id hash, m.objectIDToHash.get? id = some hash →
        (m.hashToObject.get? hash).isSome = true) ∧
      m.totalObjectsBytes =
        (m.hashToObject.entries.map fun e => (e.2.payload.map List.length).getD 0).sum := by
  obtain ⟨rs, m, he, hm⟩ := run_accounted accounted_empty computePayloadHash freed hd
  refine ⟨rs, m, he, fun hash object ho => ?_, fun id hash hi => hm.present hi, hm.bytes⟩
  obtain ⟨hu, hpos, hp⟩ := hm.counted ho
  obtain ⟨payload, hp⟩ := Option.isSome_iff_exists.mp hp
  have hle := hm.bytes_le ho
  simp only [ManagedObject.bytes, hp, Option.map_some, Option.getD_some] at hle
  exact ⟨⟨payload, hp, hle⟩, hu, hpos⟩

/-- Two ids with one content, one of which is deleted again. -/
theorem objectManager_accounted_shared :
    ∃ rs m, empty.run (fun _ => 7) (fun _ => 0)
        [.setObject ⟨0, 0, 0, 1⟩ [1, 2], .duplicateObject ⟨0, 0, 0, 1⟩ ⟨0, 0, 0, 2⟩,
          .setObject ⟨0, 0, 0, 3⟩ [3], .deleteObject ⟨0, 0, 0, 1⟩] = some (rs, m) ∧
      (∀ hash object, m.hashToObject.get? hash = some object →
        (∃ payload, object.payload = some payload ∧ payload.length ≤ m.totalObjectsBytes) ∧
        object.useCount = m.objectIDToHash.countValues (fun h => h = hash) ∧ 1 ≤ object.useCount) ∧
      (∀ id hash, m.objectIDToHash.get? id = some hash →
        (m.hashToObject.get? hash).isSome = true) ∧
      m.totalObjectsBytes =
        (m.hashToObject.entries.map fun e => (e.2.payload.map List.length).getD 0).sum :=
  objectManager_accounted _ _ _ (by simp)

end ObjectManager

end Scaler.ObjectStorage
