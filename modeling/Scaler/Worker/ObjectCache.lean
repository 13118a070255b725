import Scaler.Collections.Outcome
import Scaler.Protocol

/-! `processor/object_cache.py` and the part of `Processor` that fills and reads the cache. Serializers
are kept by client and objects by id, and one function asks for both by id. -/

namespace Scaler.Processor

open Collections

/-- The bytes of a client id: `Client|`, a name if there is one, and a tag of 32 digits. -/
structure ClientID where
  bytes : Bytes
  long : 39 ≤ bytes.length
  deriving DecidableEq

/-- An owner's hash and a tag, of 16 bytes each. -/
structure ObjectID where
  bytes : Bytes
  length : bytes.length = 32
  deriving DecidableEq

def ObjectID.objectTag (id : ObjectID) : Bytes := id.bytes.drop 16

/-- Why an object was not deserialized. -/
inductive Cause where
  | noSerializer (client : ClientID)
  | raised (error : String)
  deriving DecidableEq

structure DeserializeObjectError where
  objectId : ObjectID
  cause : Cause
  deriving DecidableEq

/-- What a task fails with before its function is called; the last one is an exception that was sent as
an object. -/
inductive TaskError where
  | cannotGetObject (objectId : ObjectID)
  | deserialize (error : DeserializeObjectError)
  | object (objectId : ObjectID)
  deriving DecidableEq

/-- What the processor calls: `hashlib.md5`, `cloudpickle.loads` of a serializer, its `deserialize`,
the `isinstance` that tells a value that is itself a `DeserializeObjectError`, and the storage with the
payload of an id after each number of deletions. -/
structure Platform (Serializer Value : Type) where
  md5 : Bytes → Bytes
  length_md5 : ∀ bytes, (md5 bytes).length = 16
  loads : Bytes → Option Serializer
  deserialize : Serializer → Bytes → Except String Value
  isDeserializeObjectError : Value → Bool
  storage : ObjectID → Nat → Bytes

namespace Platform

variable {Serializer Value : Type} (p : Platform Serializer Value)

-- `b"serializer"`
def serializerTag : Bytes := p.md5 [115, 101, 114, 105, 97, 108, 105, 122, 101, 114]

def generateSerializerObjectId (owner : ClientID) : ObjectID where
  bytes := p.md5 owner.bytes ++ p.serializerTag
  length := by rw [List.length_append, serializerTag, p.length_md5, p.length_md5]

def isSerializer (id : ObjectID) : Bool := id.objectTag = p.serializerTag

theorem isSerializer_generateSerializerObjectId (owner : ClientID) :
    p.isSerializer (p.generateSerializerObjectId owner) = true := by
  refine decide_eq_true ?_
  rw [ObjectID.objectTag, generateSerializerObjectId, ← p.length_md5 owner.bytes, List.drop_left]

end Platform

/-- User code is given the cached objects themselves: `change` is what it makes of them. -/
structure Task (Value : Type) where
  source : ClientID
  funcObjectId : ObjectID
  functionArgs : List ObjectID
  change : ObjectID → Value → Value

def Task.objectIds {Value : Type} (task : Task Value) : List ObjectID := task.funcObjectId :: task.functionArgs

inductive Message (Value : Type) where
  | task (task : Task Value)
  | delete (objectIds : List ObjectID)

/-- The cache, with what has been fetched and deleted so far: an id is fetched with the number of its
deletions. An object is kept with the client that it was deserialized for, and the number of deletions
of the serializer that was used; the code does not look at these. -/
structure ObjectCache (Serializer Value : Type) where
  serializers : Dict Bytes Serializer
  cachedObjects : Dict ObjectID (Except DeserializeObjectError Value)
  cachedFor : Dict ObjectID (ClientID × Nat)
  deleted : List ObjectID
  fetched : List (ObjectID × Nat)

namespace ObjectCache

variable {Serializer Value : Type}

def empty : ObjectCache Serializer Value := ⟨.empty, .empty, .empty, [], []⟩

variable (p : Platform Serializer Value) (cache : ObjectCache Serializer Value)

def deletions (id : ObjectID) : Nat := cache.deleted.count id

def addSerializer (client : ClientID) (serializer : Serializer) : ObjectCache Serializer Value :=
  { cache with serializers := cache.serializers.set client.bytes serializer }

def deserialize (client : ClientID) (payload : Bytes) : Except Cause Value :=
  match cache.serializers.get? client.bytes with
  | none => .error (.noSerializer client)
  | some serializer =>
    match p.deserialize serializer payload with
    | .ok value => .ok value
    | .error error => .error (.raised error)

/-- An exception of `cloudpickle.loads` ends the processor. -/
def addObject (client : ClientID) (id : ObjectID) (payload : Bytes) : Option (ObjectCache Serializer Value) :=
  if p.isSerializer id then (p.loads payload).map (cache.addSerializer client)
  else
    let deserialized := match cache.deserialize p client payload with
      | .ok value => .ok value
      | .error cause => .error ⟨id, cause⟩
    some { cache with
      cachedObjects := cache.cachedObjects.set id deserialized
      cachedFor := cache.cachedFor.set id (client, cache.deletions (p.generateSerializerObjectId client)) }

def delObject (id : ObjectID) : ObjectCache Serializer Value :=
  { cache with
    cachedObjects := cache.cachedObjects.erase id
    cachedFor := cache.cachedFor.erase id
    deleted := cache.deleted ++ [id] }

def hasObject (id : ObjectID) : Bool := cache.cachedObjects.contains id || cache.serializers.contains id.bytes

def cachedObject (id : ObjectID) : Except TaskError Value :=
  match cache.cachedObjects.get? id with
  | none => .error (.cannotGetObject id)
  | some (.error error) => .error (.deserialize error)
  | some (.ok value) => .ok value

def getObject (id : ObjectID) : Except TaskError Value := do
  let obj ← cache.cachedObject id
  if p.isDeserializeObjectError obj then .error (.object id) else return obj

/-- The body of the loop of `__cache_required_object_ids`. -/
def cacheObject (client : ClientID) (cache : ObjectCache Serializer Value) (id : ObjectID) : Option (ObjectCache Serializer Value) :=
  if cache.hasObject id then some cache
  else
    { cache with fetched := cache.fetched ++ [(id, cache.deletions id)] }.addObject p client id (p.storage id (cache.deletions id))

def cacheRequiredObjectIds (task : Task Value) : Option (ObjectCache Serializer Value) :=
  (p.generateSerializerObjectId task.source :: task.objectIds).foldlM (cacheObject p task.source) cache

/-- The function and the arguments that user code is called with. -/
def passed (task : Task Value) : Except TaskError (Value × List Value) := do
  let function ← cache.getObject p task.funcObjectId
  let args ← task.functionArgs.mapM (cache.getObject p)
  return (function, args)

/-- User code has run: the objects are as it has left them. -/
def afterCall (task : Task Value) : ObjectCache Serializer Value :=
  match cache.passed p task with
  | .error _ => cache
  | .ok _ =>
    { cache with cachedObjects := ⟨cache.cachedObjects.entries.map fun entry => (entry.1, entry.2.map (task.change entry.1)), by
        rw [List.map_map]
        exact cache.cachedObjects.nodup⟩ }

def step : Message Value → Option (ObjectCache Serializer Value)
  | .task task => (cache.cacheRequiredObjectIds p task).map (·.afterCall p task)
  | .delete objectIds => some (objectIds.foldl delObject cache)

end ObjectCache

end Scaler.Processor
