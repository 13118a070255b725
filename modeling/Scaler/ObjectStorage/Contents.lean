import Scaler.ObjectStorage.Accounting

/-! What `ObjectManager` is for: a map from object ids to payloads. It is one as long as
no id is duplicated onto itself and no payload meets another one with its hash. -/

namespace Scaler.ObjectStorage

open Collections

/-- The payload each id was last given. -/
abbrev ObjectMap := Dict ObjectID ObjectPayload

namespace ObjectMap

def step (d : ObjectMap) : Call → Result × ObjectMap
  | .setObject id payload => (.object (some payload), d.set id payload)
  | .getObject id => (.object (d.get? id), d)
  | .deleteObject id => (.deleted (d.get? id).isSome, d.erase id)
  | .duplicateObject originalID newID =>
    match d.get? originalID with
    | none => (.object none, d)
    | some payload => (.object (some payload), d.set newID payload)
  | .size => (.count d.keys.length, d)

def run : ObjectMap → List Call → List Result × ObjectMap
  | d, [] => ([], d)
  | d, call :: calls => ((d.step call).1 :: (run (d.step call).2 calls).1, (run (d.step call).2 calls).2)

end ObjectMap

section

variable {computePayloadHash : ObjectPayload → ObjectHash} {m m' : ObjectManager} {d : ObjectMap}
  {id : ObjectID} {hash freed : ObjectHash} {object : ManagedObject} {call : Call}

/-- The manager holds the payloads of the map, each under its hash. -/
structure Holds (computePayloadHash : ObjectPayload → ObjectHash) (m : ObjectManager)
    (d : ObjectMap) : Prop where
  accounted : m.Accounted
  hashed : ∀ {hash object payload}, m.hashToObject.get? hash = some object →
    object.payload = some payload → computePayloadHash payload = hash
  unbound : ∀ {id}, m.objectIDToHash.get? id = none → d.get? id = none
  bound : ∀ {id hash object}, m.objectIDToHash.get? id = some hash →
    m.hashToObject.get? hash = some object → object.payload = d.get? id

/-- The call does not duplicate an object onto itself. -/
def Call.Apart (d : ObjectMap) : Call → Prop
  | .duplicateObject originalID newID => newID = originalID → d.get? originalID = none
  | _ => True

/-- No other id holds a different payload with the hash of the one that is set. -/
def Call.Distinguished (computePayloadHash : ObjectPayload → ObjectHash) (d : ObjectMap) :
    Call → Prop
  | .setObject id payload => ∀ other stored, other ≠ id → d.get? other = some stored →
    computePayloadHash stored = computePayloadHash payload → stored = payload
  | _ => True

namespace Holds

theorem empty : Holds computePayloadHash .empty Dict.empty := by
  refine ⟨ObjectManager.accounted_empty, fun h => ?_, fun _ => rfl, fun h => ?_⟩
  · simp [ObjectManager.empty] at h
  · simp [ObjectManager.empty] at h

theorem get (h : Holds computePayloadHash m d) (id : ObjectID) :
    m.getObject id = some (d.get? id) := by
  cases hi : m.objectIDToHash.get? id with
  | none => simp [ObjectManager.getObject, hi, h.unbound hi]
  | some hash =>
    obtain ⟨object, ho⟩ := Option.isSome_iff_exists.mp (h.accounted.present hi)
    simp [ObjectManager.getObject, hi, ho, h.bound hi ho]

theorem isSome (h : Holds computePayloadHash m d) (id : ObjectID) :
    (m.objectIDToHash.get? id).isSome = (d.get? id).isSome := by
  cases hi : m.objectIDToHash.get? id with
  | none =>
    rw [h.unbound hi]
    rfl
  | some hash =>
    obtain ⟨object, ho⟩ := Option.isSome_iff_exists.mp (h.accounted.present hi)
    rw [← h.bound hi ho, (h.accounted.counted ho).2.2]
    rfl

theorem size (h : Holds computePayloadHash m d) : m.size = d.keys.length :=
  Dict.length_keys_congr h.isSome

theorem congr (h : Holds computePayloadHash m d) {d' : ObjectMap} (hd : ∀ id, d.get? id = d'.get? id) :
    Holds computePayloadHash m d' :=
  ⟨h.accounted, h.hashed, fun hi => hd _ ▸ h.unbound hi, fun hi ho => hd _ ▸ h.bound hi ho⟩

theorem dropped (h : Holds computePayloadHash m d) (hd : m.Dropped id m') :
    Holds computePayloadHash m' (d.erase id) := by
  refine ⟨hd.accounted, fun ho hp => ?_, fun {j} hj => ?_, fun {j k o} hj ho => ?_⟩
  · obtain ⟨o, ho, hx⟩ := hd.payload ho
    exact h.hashed ho (hx.trans hp)
  · rw [hd.ids, Dict.get?_erase] at hj
    rw [Dict.get?_erase]
    split at hj
    · next he => rw [if_pos he]
    · next hne =>
      rw [if_neg hne]
      exact h.unbound hj
  · rw [hd.ids, Dict.get?_erase] at hj
    split at hj
    · cases hj
    · next hne =>
      obtain ⟨o', ho', hx⟩ := hd.payload ho
      rw [Dict.get?_erase_ne _ hne, ← hx]
      exact h.bound hj ho'

theorem link (h : Holds computePayloadHash m d) (hi : m.objectIDToHash.get? id = none)
    (ho : m.hashToObject.get? hash = some object) {payload : ObjectPayload}
    (hp : object.payload = some payload) :
    Holds computePayloadHash
      { m with
        objectIDToHash := m.objectIDToHash.set id hash
        hashToObject := m.hashToObject.set hash { object with useCount := object.useCount + 1 } }
      (d.set id payload) := by
  have hold : ∀ {k o}, (m.hashToObject.set hash
      { object with useCount := object.useCount + 1 }).get? k = some o →
      ∃ o', m.hashToObject.get? k = some o' ∧ o'.payload = o.payload := by
    intro k o hk
    rw [Dict.get?_set] at hk
    split at hk
    · next he =>
      cases hk
      exact ⟨object, he ▸ ho, rfl⟩
    · exact ⟨o, hk, rfl⟩
  refine ⟨h.accounted.link hi ho, fun hk hx => ?_, fun {j} hj => ?_, fun {j k o} hj hk => ?_⟩
  · obtain ⟨o', ho', he⟩ := hold hk
    exact h.hashed ho' (he.trans hx)
  · simp only [Dict.get?_set] at hj ⊢
    split at hj
    · cases hj
    · next hne =>
      rw [if_neg hne]
      exact h.unbound hj
  · obtain ⟨o', ho', he⟩ := hold hk
    simp only [Dict.get?_set] at hj ⊢
    rw [← he]
    split at hj
    · next hji =>
      cases hj
      rw [ho] at ho'
      cases ho'
      rw [if_pos hji, hp]
    · next hne =>
      rw [if_neg hne]
      exact h.bound hj ho'

theorem insert (h : Holds computePayloadHash m d) (hi : m.objectIDToHash.get? id = none)
    {payload : ObjectPayload} (ho : m.hashToObject.get? (computePayloadHash payload) = none) :
    Holds computePayloadHash
      { objectIDToHash := m.objectIDToHash.set id (computePayloadHash payload)
        hashToObject := m.hashToObject.set (computePayloadHash payload) ⟨1, some payload⟩
        totalObjectsBytes := m.totalObjectsBytes + payload.length }
      (d.set id payload) := by
  refine ⟨h.accounted.insert hi ho payload, fun {k o p} hk hx => ?_, fun {j} hj => ?_,
    fun {j k o} hj hk => ?_⟩
  · simp only [Dict.get?_set] at hk
    split at hk
    · next he =>
      cases hk
      cases hx
      exact he.symm
    · exact h.hashed hk hx
  · simp only [Dict.get?_set] at hj ⊢
    split at hj
    · cases hj
    · next hne =>
      rw [if_neg hne]
      exact h.unbound hj
  · simp only [Dict.get?_set] at hj hk ⊢
    split at hj
    · next hji =>
      cases hj
      rw [if_pos rfl] at hk
      cases hk
      rw [if_pos hji]
    · next hne =>
      rw [if_neg hne]
      split at hk
      · next he =>
        have := h.accounted.present hj
        rw [he, ho] at this
        cases this
      · exact h.bound hj hk

theorem rebind {payload : ObjectPayload} (h : Holds computePayloadHash m ((d.erase id).set id payload)) :
    Holds computePayloadHash m (d.set id payload) := by
  refine h.congr fun j => ?_
  simp only [Dict.get?_set, Dict.get?_erase]
  split <;> rfl

theorem user (h : Holds computePayloadHash m d) (ho : m.hashToObject.get? hash = some object) :
    ∃ id, m.objectIDToHash.get? id = some hash ∧ d.get? id = object.payload := by
  obtain ⟨hu, hpos, _⟩ := h.accounted.counted ho
  have hpos : 0 < m.users hash := by omega
  obtain ⟨id, k, hi, hk⟩ := Dict.countValues_pos.mp hpos
  cases of_decide_eq_true hk
  exact ⟨id, hi, (h.bound hi ho).symm⟩

theorem stored (h : Holds computePayloadHash m d) {payload : ObjectPayload}
    (hp : d.get? id = some payload) :
    ∃ object, m.hashToObject.get? (computePayloadHash payload) = some object ∧
      object.payload = some payload := by
  have hs := h.isSome id
  rw [hp] at hs
  obtain ⟨hash, hi⟩ := Option.isSome_iff_exists.mp hs
  obtain ⟨object, ho⟩ := Option.isSome_iff_exists.mp (h.accounted.present hi)
  have hx : object.payload = some payload := (h.bound hi ho).trans hp
  exact ⟨object, h.hashed ho hx ▸ ho, hx⟩

/-- Which payload `setObject` leaves, whatever the hash function: its own or one that
another id has. -/
theorem setObject (h : Holds computePayloadHash m d) (id : ObjectID) (payload : ObjectPayload) :
    ∃ stored m', m.setObject computePayloadHash id payload = some (some stored, m') ∧
      Holds computePayloadHash m' (d.set id stored) ∧
      (stored ≠ payload → computePayloadHash stored = computePayloadHash payload ∧
        ∃ other, other ≠ id ∧ d.get? other = some stored) ∧
      (stored = payload → ∀ other q, other ≠ id → d.get? other = some q →
        computePayloadHash q = computePayloadHash payload → q = payload) := by
  obtain ⟨n, hn, hd⟩ := ObjectManager.override_spec h.accounted id
  have hh := h.dropped hd
  cases ho : n.hashToObject.get? (computePayloadHash payload) with
  | none =>
    refine ⟨payload, _, ?_, (hh.insert hd.get?_self ho).rebind, fun hx => absurd rfl hx, ?_⟩
    · simp [ObjectManager.setObject, hn, ho]
    · intro _ other q hne hq hx
      obtain ⟨object, hs, _⟩ := hh.stored ((Dict.get?_erase_ne _ hne).trans hq)
      rw [hx, ho] at hs
      cases hs
  | some object =>
    obtain ⟨stored, hp⟩ := Option.isSome_iff_exists.mp (hh.accounted.counted ho).2.2
    refine ⟨stored, _, ?_, (hh.link hd.get?_self ho hp).rebind, fun _ => ⟨hh.hashed ho hp, ?_⟩, ?_⟩
    · simp [ObjectManager.setObject, hn, ho, hp]
    · obtain ⟨other, _, hu⟩ := hh.user ho
      rw [Dict.get?_erase, hp] at hu
      split at hu
      · cases hu
      · next hne => exact ⟨other, hne, hu⟩
    · intro hs other q hne hq hx
      obtain ⟨o, hs', hq'⟩ := hh.stored ((Dict.get?_erase_ne _ hne).trans hq)
      rw [hx, ho] at hs'
      cases hs'
      rw [hp] at hq'
      cases hq'
      exact hs

theorem deleteObject (h : Holds computePayloadHash m d) (id : ObjectID) :
    ∃ m', m.deleteObject id = some ((d.get? id).isSome, m') ∧
      Holds computePayloadHash m' (d.erase id) := by
  obtain ⟨m', he, hd⟩ := ObjectManager.deleteObject_spec h.accounted id
  refine ⟨m', ?_, h.dropped hd⟩
  rw [he, ← h.isSome id]
  rfl

/-- Freed memory is only read when an id is duplicated onto itself. -/
theorem duplicateObject (h : Holds computePayloadHash m d) (originalID newID : ObjectID)
    (hne : newID = originalID → d.get? originalID = none) :
    ∃ m', (∀ freed, m.duplicateObject freed originalID newID = some (d.get? originalID, m')) ∧
      Holds computePayloadHash m' (d.step (.duplicateObject originalID newID)).2 := by
  cases hp : d.get? originalID with
  | none =>
    have hi : m.objectIDToHash.get? originalID = none := by
      have := h.isSome originalID
      rw [hp] at this
      simpa using this
    refine ⟨m, fun freed => by simp [ObjectManager.duplicateObject, hi], ?_⟩
    simp only [ObjectMap.step, hp]
    exact h
  | some payload =>
    have hne : newID ≠ originalID := by
      intro he
      rw [hne he] at hp
      cases hp
    obtain ⟨hash, hi⟩ : ∃ hash, m.objectIDToHash.get? originalID = some hash := by
      have := h.isSome originalID
      rw [hp] at this
      exact Option.isSome_iff_exists.mp this
    obtain ⟨n, hn, hd⟩ := ObjectManager.override_spec h.accounted newID
    obtain ⟨object, ho⟩ := hd.kept hi hne
    obtain ⟨o, ho', hx⟩ := hd.payload ho
    have hx : object.payload = some payload := hx.symm.trans ((h.bound hi ho').trans hp)
    have hh := ((h.dropped hd).link hd.get?_self ho hx).rebind
    refine ⟨_, fun freed => ?_, by simpa only [ObjectMap.step, hp] using hh⟩
    simp [ObjectManager.duplicateObject, hi, hn, if_neg hne, ho, hx]

theorem step (h : Holds computePayloadHash m d) (hd : call.Apart d)
    (hc : call.Distinguished computePayloadHash d) :
    ∃ m', (∀ freed, m.step computePayloadHash freed call = some ((d.step call).1, m')) ∧
      Holds computePayloadHash m' (d.step call).2 := by
  cases call with
  | setObject id payload =>
    obtain ⟨stored, m', he, hh, hx, _⟩ := h.setObject id payload
    by_cases hs : stored = payload
    · subst hs
      exact ⟨m', fun freed => by simp [ObjectManager.step, ObjectMap.step, he], hh⟩
    · obtain ⟨hx, other, hne, ho⟩ := hx hs
      exact absurd (hc other stored hne ho hx) hs
  | getObject id =>
    exact ⟨m, fun freed => by simp [ObjectManager.step, ObjectMap.step, h.get id], h⟩
  | deleteObject id =>
    obtain ⟨m', he, hh⟩ := h.deleteObject id
    exact ⟨m', fun freed => by simp [ObjectManager.step, ObjectMap.step, he], hh⟩
  | duplicateObject a b =>
    obtain ⟨m', he, hh⟩ := h.duplicateObject a b hd
    refine ⟨m', fun freed => ?_, hh⟩
    cases hp : d.get? a <;> simp [ObjectManager.step, ObjectMap.step, he, hp]
  | size => exact ⟨m, fun freed => by simp [ObjectManager.step, ObjectMap.step, h.size], h⟩

/-- A self-duplicate of a bound id reads a hash that need not be the id's own. -/
theorem duplicateObject_self (h : Holds computePayloadHash m d) {payload : ObjectPayload}
    (hp : d.get? id = some payload) (hf : freed ≠ computePayloadHash payload)
    {r : Option ObjectPayload} (he : m.duplicateObject freed id id = some (r, m')) :
    r ≠ some payload := by
  obtain ⟨hash, hi⟩ : ∃ hash, m.objectIDToHash.get? id = some hash := by
    have := h.isSome id
    rw [hp] at this
    exact Option.isSome_iff_exists.mp this
  obtain ⟨n, hn, hd⟩ := ObjectManager.override_spec h.accounted id
  simp only [ObjectManager.duplicateObject, hi, hn, if_true, Option.bind_eq_bind, Option.bind_some,
    Option.some.injEq, Prod.mk.injEq] at he
  obtain ⟨rfl, _⟩ := he
  intro hx
  cases ho : n.hashToObject.get? freed with
  | none =>
    rw [ho] at hx
    cases hx
  | some object =>
    rw [ho] at hx
    exact hf ((h.dropped hd).hashed ho hx).symm

end Holds

/-- Every call meets the condition in the map that it finds. -/
def ObjectMap.Always (P : ObjectMap → Call → Prop) : ObjectMap → List Call → Prop
  | _, [] => True
  | d, call :: calls => P d call ∧ Always P (d.step call).2 calls

theorem ObjectManager.run_cons {freed : Nat → ObjectHash} {calls : List Call} {r : Result}
    (h : m.step computePayloadHash (freed calls.length) call = some (r, m')) :
    m.run computePayloadHash freed (call :: calls) =
      (m'.run computePayloadHash freed calls).map fun x => (r :: x.1, x.2) := by
  simp only [run, h, Option.bind_eq_bind, Option.bind_some]
  cases m'.run computePayloadHash freed calls <;> rfl

theorem ObjectMap.step_values {S : ObjectPayload → Prop} (hS : ∀ id p, d.get? id = some p → S p)
    (hc : ∀ id p, call = .setObject id p → S p) (id : ObjectID) (p : ObjectPayload)
    (h : (d.step call).2.get? id = some p) : S p := by
  cases call with
  | setObject j q =>
    simp only [step, Dict.get?_set] at h
    split at h
    · cases h
      exact hc j p rfl
    · exact hS id p h
  | getObject j => exact hS id p h
  | deleteObject j =>
    simp only [step, Dict.get?_erase] at h
    split at h
    · cases h
    · exact hS id p h
  | duplicateObject a b =>
    cases ha : d.get? a with
    | none =>
      simp only [step, ha] at h
      exact hS id p h
    | some q =>
      simp only [step, ha, Dict.get?_set] at h
      split at h
      · cases h
        exact hS a p ha
      · exact hS id p h
  | size => exact hS id p h

/-- A manager that duplicates a bound id onto itself may answer something else. -/
theorem Holds.apart_of_run {calls : List Call} (h : Holds computePayloadHash m d)
    (hrun : ∀ freed, (m.run computePayloadHash freed (call :: calls)).map Prod.fst =
      some (d.run (call :: calls)).1) : call.Apart d := by
  cases call with
  | duplicateObject a b =>
    rintro rfl
    by_contra hn
    obtain ⟨p, hp⟩ := Option.ne_none_iff_exists'.mp hn
    have hr := hrun fun _ => computePayloadHash p + 1
    cases hx : m.duplicateObject (computePayloadHash p + 1) b b with
    | none => simp [ObjectManager.run, ObjectManager.step, hx] at hr
    | some x =>
      have hstep : m.step computePayloadHash (computePayloadHash p + 1) (.duplicateObject b b) =
          some (.object x.1, x.2) := by
        simp [ObjectManager.step, hx]
      rw [ObjectManager.run_cons hstep] at hr
      have hne : computePayloadHash p + 1 ≠ computePayloadHash p := by
        simp
      refine h.duplicateObject_self hp hne hx ?_
      cases hy : x.2.run computePayloadHash (fun _ => computePayloadHash p + 1) calls with
      | none => simp [hy] at hr
      | some y =>
        simp only [hy, ObjectMap.run, ObjectMap.step, hp, Option.map_some, Option.some.injEq,
          List.cons.injEq, Result.object.injEq] at hr
        exact hr.1
  | _ => trivial

theorem Holds.run_iff {S : ObjectPayload → Prop} {calls : List Call} (h : Holds computePayloadHash m d)
    (hd : ∀ id p, d.get? id = some p → S p) (hs : ∀ id p, .setObject id p ∈ calls → S p)
    (hinj : ∀ p q, S p → S q → computePayloadHash p = computePayloadHash q → p = q) :
    (∀ freed, (m.run computePayloadHash freed calls).map Prod.fst = some (d.run calls).1) ↔
      d.Always (fun d call => call.Apart d) calls := by
  induction calls generalizing m d with
  | nil => exact ⟨fun _ => trivial, fun _ _ => rfl⟩
  | cons call calls ih =>
    have hS : ∀ id p, call = .setObject id p → S p :=
      fun id p he => hs id p (he ▸ List.mem_cons_self)
    have hc : call.Distinguished computePayloadHash d := by
      cases call with
      | setObject id payload =>
        exact fun other stored _ ho hx => hinj _ _ (hd other stored ho) (hS id payload rfl) hx
      | _ => trivial
    have hone : call.Apart d → ((∀ freed, (m.run computePayloadHash freed (call :: calls)).map Prod.fst =
        some (d.run (call :: calls)).1) ↔ ObjectMap.Always (fun d call => call.Apart d)
          (d.step call).2 calls) := by
      intro hap
      obtain ⟨m', he, hh⟩ := h.step hap hc
      rw [← ih hh (ObjectMap.step_values hd hS) fun id p hp => hs id p (List.mem_cons_of_mem _ hp)]
      refine forall_congr' fun freed => ?_
      rw [ObjectManager.run_cons (he _)]
      cases m'.run computePayloadHash freed calls <;> simp [ObjectMap.run]
    constructor
    · intro hrun
      have hap := h.apart_of_run hrun
      exact ⟨hap, (hone hap).mp hrun⟩
    · rintro ⟨hap, htail⟩
      exact (hone hap).mpr htail

/-- The manager answers like a map, whatever freed memory reads as, exactly when no bound
id is duplicated onto itself. -/
theorem objectManager_refines_map_iff (computePayloadHash : ObjectPayload → ObjectHash)
    (calls : List Call)
    (hinj : ∀ i p j q, .setObject i p ∈ calls → .setObject j q ∈ calls →
      computePayloadHash p = computePayloadHash q → p = q) :
    (∀ freed, (ObjectManager.empty.run computePayloadHash freed calls).map Prod.fst =
      some (ObjectMap.run Dict.empty calls).1) ↔
      ObjectMap.Always (fun d call => call.Apart d) Dict.empty calls := by
  refine Holds.empty.run_iff (S := fun p => ∃ i, .setObject i p ∈ calls) ?_ ?_ ?_
  · rintro id p ⟨⟩
  · exact fun id p hp => ⟨id, hp⟩
  · rintro p q ⟨i, hp⟩ ⟨j, hq⟩ he
    exact hinj i p j q hp hq he

theorem objectManager_refines_map_iff_one :
    (∀ freed, (ObjectManager.empty.run (fun _ => 7) freed
        [.setObject ⟨0, 0, 0, 1⟩ [1, 2], .duplicateObject ⟨0, 0, 0, 1⟩ ⟨0, 0, 0, 2⟩]).map Prod.fst =
      some (ObjectMap.run Dict.empty
        [.setObject ⟨0, 0, 0, 1⟩ [1, 2], .duplicateObject ⟨0, 0, 0, 1⟩ ⟨0, 0, 0, 2⟩]).1) ↔
      ObjectMap.Always (fun d call => call.Apart d) Dict.empty
        [.setObject ⟨0, 0, 0, 1⟩ [1, 2], .duplicateObject ⟨0, 0, 0, 1⟩ ⟨0, 0, 0, 2⟩] :=
  objectManager_refines_map_iff _ _ (by
    intro i p j q hp hq _
    simp only [List.mem_cons, Call.setObject.injEq, reduceCtorEq, List.not_mem_nil, or_false] at hp hq
    rw [hp.2, hq.2])

theorem objectManager_loses_self_duplicate :
    ¬ ∀ (computePayloadHash : ObjectPayload → ObjectHash) (freed : Nat → ObjectHash)
        (calls : List Call), (∀ i p j q, .setObject i p ∈ calls → .setObject j q ∈ calls →
          computePayloadHash p = computePayloadHash q → p = q) →
        (ObjectManager.empty.run computePayloadHash freed calls).map Prod.fst =
          some (ObjectMap.run Dict.empty calls).1 := by
  intro h
  have hx := h (fun _ => 7) (fun _ => 7)
    [.setObject ⟨0, 0, 0, 1⟩ [1], .duplicateObject ⟨0, 0, 0, 1⟩ ⟨0, 0, 0, 1⟩] ?_
  · revert hx
    decide
  · intro i p j q hp hq _
    simp only [List.mem_cons, Call.setObject.injEq, reduceCtorEq, List.not_mem_nil, or_false] at hp hq
    rw [hp.2, hq.2]

/-- After every part of the calls, `getObject` returns what the map has. -/
def Faithful (computePayloadHash : ObjectPayload → ObjectHash) (freed : Nat → ObjectHash)
    (m : ObjectManager) (d : ObjectMap) (calls : List Call) : Prop :=
  ∀ before after, calls = before ++ after → ∀ id, ∃ rs m',
    m.run computePayloadHash freed before = some (rs, m') ∧
      m'.getObject id = some ((d.run before).2.get? id)

theorem Faithful.cons {freed : Nat → ObjectHash} {calls : List Call}
    (hf : ∀ n, m.step computePayloadHash n call = some ((d.step call).1, m')) :
    Faithful computePayloadHash freed m d (call :: calls) ↔
      (∀ id, ∃ rs n, m.run computePayloadHash freed [] = some (rs, n) ∧
        n.getObject id = some (d.get? id)) ∧
      Faithful computePayloadHash freed m' (d.step call).2 calls := by
  constructor
  · intro h
    refine ⟨fun id => h [] (call :: calls) rfl id, fun before after he id => ?_⟩
    obtain ⟨rs, n, hr, hg⟩ := h (call :: before) after (congrArg _ he) id
    rw [ObjectManager.run_cons (hf _)] at hr
    obtain ⟨x, hx, hy⟩ := Option.map_eq_some_iff.mp hr
    cases hy
    exact ⟨x.1, x.2, hx, hg⟩
  · rintro ⟨h0, h⟩ before after he id
    cases before with
    | nil => exact h0 id
    | cons c before =>
      simp only [List.cons_append, List.cons.injEq] at he
      obtain ⟨rfl, he⟩ := he
      obtain ⟨rs, n, hr, hg⟩ := h before after he id
      refine ⟨(d.step call).1 :: rs, n, ?_, hg⟩
      rw [ObjectManager.run_cons (hf _), hr]
      rfl

theorem Holds.faithful_iff {freed : Nat → ObjectHash} {calls : List Call}
    (h : Holds computePayloadHash m d) (hd : ∀ a, .duplicateObject a a ∉ calls) :
    Faithful computePayloadHash freed m d calls ↔
      d.Always (Call.Distinguished computePayloadHash) calls := by
  induction calls generalizing m d with
  | nil =>
    refine ⟨fun _ => trivial, fun _ before after he id => ?_⟩
    obtain ⟨rfl, _⟩ := List.append_eq_nil_iff.mp he.symm
    exact ⟨[], m, rfl, h.get id⟩
  | cons call calls ih =>
    have hap : call.Apart d := by
      cases call with
      | duplicateObject a b =>
        rintro rfl
        exact absurd List.mem_cons_self (hd b)
      | _ => trivial
    have hone : call.Distinguished computePayloadHash d →
        (Faithful computePayloadHash freed m d (call :: calls) ↔
          ObjectMap.Always (Call.Distinguished computePayloadHash) (d.step call).2 calls) := by
      intro hc
      obtain ⟨m', he, hh⟩ := h.step hap hc
      rw [Faithful.cons he, ih hh fun a ha => hd a (List.mem_cons_of_mem _ ha)]
      exact and_iff_right fun id => ⟨[], m, rfl, h.get id⟩
    constructor
    · intro hf
      have hc : call.Distinguished computePayloadHash d := by
        cases call with
        | setObject id payload =>
          obtain ⟨stored, m', he, hh, _, hs⟩ := h.setObject id payload
          refine hs ?_
          obtain ⟨rs, n, hr, hg⟩ := hf [.setObject id payload] calls rfl id
          have hstep : m.step computePayloadHash (freed 0) (.setObject id payload) =
              some (.object (some stored), m') := by
            simp [ObjectManager.step, he]
          rw [ObjectManager.run_cons hstep] at hr
          simp only [ObjectManager.run, Option.map_some, Option.some.injEq, Prod.mk.injEq] at hr
          obtain ⟨_, rfl⟩ := hr
          rw [hh.get id] at hg
          simpa [ObjectMap.run, ObjectMap.step] using hg
        | _ => trivial
      exact ⟨hc, (hone hc).mp hf⟩
    · rintro ⟨hc, htail⟩
      exact (hone hc).mpr htail

/-- Every id keeps the bytes it was given exactly when no payload is set while another
id holds a different one with the same hash. -/
theorem objectManager_faithful_iff (computePayloadHash : ObjectPayload → ObjectHash)
    (freed : Nat → ObjectHash) (calls : List Call) (hd : ∀ a, .duplicateObject a a ∉ calls) :
    Faithful computePayloadHash freed .empty Dict.empty calls ↔
      ObjectMap.Always (Call.Distinguished computePayloadHash) Dict.empty calls :=
  Holds.empty.faithful_iff hd

theorem objectManager_faithful_iff_two :
    Faithful (fun p => p.length.toUInt64) (fun _ => 0) .empty Dict.empty
        [.setObject ⟨0, 0, 0, 1⟩ [1], .setObject ⟨0, 0, 0, 2⟩ [2, 2]] ↔
      ObjectMap.Always (Call.Distinguished fun p => p.length.toUInt64) Dict.empty
        [.setObject ⟨0, 0, 0, 1⟩ [1], .setObject ⟨0, 0, 0, 2⟩ [2, 2]] :=
  objectManager_faithful_iff _ _ _ (by simp)

/-- Two payloads with one hash: the second id gets the bytes of the first. -/
theorem objectManager_exchanges_collision :
    ¬ ∀ (computePayloadHash : ObjectPayload → ObjectHash) (freed : Nat → ObjectHash)
        (calls : List Call), (∀ a, .duplicateObject a a ∉ calls) →
        Faithful computePayloadHash freed .empty Dict.empty calls := by
  intro h
  obtain ⟨rs, m, hr, hg⟩ := h (fun p => p.length.toUInt64) (fun _ => 0)
    [.setObject ⟨0, 0, 0, 1⟩ [1], .setObject ⟨0, 0, 0, 2⟩ [2]] (by simp)
    [.setObject ⟨0, 0, 0, 1⟩ [1], .setObject ⟨0, 0, 0, 2⟩ [2]] [] rfl ⟨0, 0, 0, 2⟩
  have hx : ((ObjectManager.empty.run (fun p => p.length.toUInt64) (fun _ => 0)
      [.setObject ⟨0, 0, 0, 1⟩ [1], .setObject ⟨0, 0, 0, 2⟩ [2]]).bind
        fun x => x.2.getObject ⟨0, 0, 0, 2⟩) = some (some [1]) := by
    decide
  rw [hr, Option.bind_some, hg] at hx
  revert hx
  decide

end

end Scaler.ObjectStorage
