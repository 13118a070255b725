import Scaler.Collections.Dict

/-! `ObjectManager` of the object storage server: object ids share their payloads
through a table keyed by the payload's hash. A call that ends the process, or whose
behaviour C++ leaves undefined, returns `none`. -/

namespace Scaler.ObjectStorage

open Collections

structure ObjectID where
  field0 : UInt64
  field1 : UInt64
  field2 : UInt64
  field3 : UInt64
  deriving DecidableEq, Repr

abbrev ObjectPayload := List UInt8

abbrev ObjectHash := UInt64

/-- `a - b` of `size_t`, which wraps below zero. What these counters count is in memory,
so they never wrap above. -/
def subSize (a b : Nat) : Nat := if b ≤ a then a - b else a + 2 ^ 64 - b

/-- The payload is a shared pointer, `none` when it is null. -/
structure ManagedObject where
  useCount : Nat
  payload : Option ObjectPayload
  deriving DecidableEq, Repr

structure ObjectManager where
  objectIDToHash : Dict ObjectID ObjectHash
  hashToObject : Dict ObjectHash ManagedObject
  totalObjectsBytes : Nat

namespace ObjectManager

def empty : ObjectManager := ⟨Dict.empty, Dict.empty, 0⟩

variable (m : ObjectManager)

def hasObject (id : ObjectID) : Bool := m.objectIDToHash.contains id

def size : Nat := m.objectIDToHash.keys.length

def sizeUnique : Nat := m.hashToObject.keys.length

/-- The entry of a hash that lost its last id leaves the table; its payload is
dereferenced for its size. -/
def dropObject (hash : ObjectHash) (object : ManagedObject) : Option ObjectManager :=
  object.payload.map fun payload =>
    { m with
      hashToObject := m.hashToObject.erase hash
      totalObjectsBytes := subSize m.totalObjectsBytes payload.length }

def deleteObject (id : ObjectID) : Option (Bool × ObjectManager) :=
  match m.objectIDToHash.get? id with
  | none => some (false, m)
  | some hash => do
    let object ← m.hashToObject.get? hash
    let object := { object with useCount := subSize object.useCount 1 }
    let m ←
      if object.useCount < 1 then m.dropObject hash object
      else some { m with hashToObject := m.hashToObject.set hash object }
    some (true, { m with objectIDToHash := m.objectIDToHash.erase id })

/-- An id that is written again loses its old object first. -/
def override (id : ObjectID) : Option ObjectManager :=
  if m.hasObject id then (m.deleteObject id).map Prod.snd else some m

def setObject (computePayloadHash : ObjectPayload → ObjectHash) (id : ObjectID)
    (payload : ObjectPayload) : Option (Option ObjectPayload × ObjectManager) := do
  let m ← m.override id
  let hash := computePayloadHash payload
  let ids := m.objectIDToHash.set id hash
  match m.hashToObject.get? hash with
  | none =>
    some (some payload,
      { objectIDToHash := ids
        hashToObject := m.hashToObject.set hash ⟨1, some payload⟩
        totalObjectsBytes := m.totalObjectsBytes + payload.length })
  | some object =>
    some (object.payload,
      { m with
        objectIDToHash := ids
        hashToObject := m.hashToObject.set hash { object with useCount := object.useCount + 1 } })

/-- `hashToObject.at` throws where nothing may be thrown. -/
def getObject (id : ObjectID) : Option (Option ObjectPayload) :=
  match m.objectIDToHash.get? id with
  | none => some none
  | some hash => (m.hashToObject.get? hash).map ManagedObject.payload

/-- The hash is read through the iterator of the original id after the new id was
deleted. When both are one id, the iterator's node is gone and `freed` is what its memory
reads as. `operator[]` makes an entry without a payload where there is none. -/
def duplicateObject (freed : ObjectHash) (originalID newID : ObjectID) :
    Option (Option ObjectPayload × ObjectManager) :=
  match m.objectIDToHash.get? originalID with
  | none => some (none, m)
  | some hash => do
    let m ← m.override newID
    let hash := if newID = originalID then freed else hash
    let object := (m.hashToObject.get? hash).getD ⟨0, none⟩
    some (object.payload,
      { m with
        hashToObject := m.hashToObject.set hash { object with useCount := object.useCount + 1 }
        objectIDToHash := m.objectIDToHash.set newID hash })

end ObjectManager

inductive Call where
  | setObject (id : ObjectID) (payload : ObjectPayload)
  | getObject (id : ObjectID)
  | deleteObject (id : ObjectID)
  | duplicateObject (originalID newID : ObjectID)
  | size
  deriving DecidableEq, Repr

inductive Result where
  | object (payload : Option ObjectPayload)
  | deleted (success : Bool)
  | count (n : Nat)
  deriving DecidableEq, Repr

section

variable (computePayloadHash : ObjectPayload → ObjectHash)

def ObjectManager.step (freed : ObjectHash) (m : ObjectManager) :
    Call → Option (Result × ObjectManager)
  | .setObject id payload => 
    (m.setObject computePayloadHash id payload).map fun r => (.object r.1, r.2)
  | .getObject id => (m.getObject id).map fun r => (.object r, m)
  | .deleteObject id => (m.deleteObject id).map fun r => (.deleted r.1, r.2)
  | .duplicateObject originalID newID =>
    (m.duplicateObject freed originalID newID).map fun r => (.object r.1, r.2)
  | .size => some (.count m.size, m)

/-- The results of a sequence of calls and the manager after it; `freed n` is what freed
memory reads as when `n` more calls follow. -/
def ObjectManager.run (freed : Nat → ObjectHash) :
    ObjectManager → List Call → Option (List Result × ObjectManager)
  | m, [] => some ([], m)
  | m, call :: calls => do
    let (r, m) ← m.step computePayloadHash (freed calls.length) call
    let (rs, m) ← m.run freed calls
    some (r :: rs, m)

end

end Scaler.ObjectStorage
