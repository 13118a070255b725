import Scaler.Protocol
import Scaler.Collections.Dict
import Scaler.Collections.Stateful
import Scaler.Graph.TopologicalSorter

/-! `ObjectBuffer` of `client/object_buffer.py` and the calls of `client/client.py` that buffer
objects. A Python object has a number of its own and the address that `id` returns; only the
address is used again after the object is freed. The serializer, the random object ids and the
digest of a payload are parameters. What others have seen of the buffer (what was serialized,
returned, announced to the agent and stored) is recorded in the order in which it happens. -/

namespace Scaler

open Collections

/-- What a call that buffers objects raises. -/
inductive SubmitExn where
  | serializerError
  | missingObjects (objectId : ObjectID)
  | typeError
  | keyError
  | cycleError
  | valueError
  | connectorError
  | uploadError
  deriving DecidableEq, Repr

structure PyObject where
  number : Nat
  address : Nat
  weakReferenceable : Bool
  deriving DecidableEq, Repr

inductive ObjectContentType where
  | serializer
  | object
  deriving DecidableEq, Repr

structure ObjectCache where
  objectId : ObjectID
  objectType : ObjectContentType
  objectName : Bytes
  objectPayload : Bytes
  deriving DecidableEq, Repr

/-- What the buffer is created with. `serialize n o` is what the serializer returns, or `none`
when it raises, if its `n`-th call is about `o`; `generateObjectId n` is the `n`-th random id. -/
structure BufferConfig where
  serialize : Nat → PyObject → Option Bytes
  generateObjectId : Nat → ObjectID
  serializerObjectId : ObjectID
  serializerPayload : Bytes
  md5 : Bytes → Bytes
  reprObjectId : ObjectID → String
  functionName : PyObject → Option String

/-- What becomes of an upload that was started. -/
inductive Upload where
  | stored
  | storedAndRaised
  | raised
  deriving DecidableEq, Repr

/-- What the agent does for a commit: whether it takes the instruction, and the uploads. -/
structure AgentAnswer where
  accepts : Bool
  upload : ObjectID → Upload

structure ObjectBuffer where
  validObjectIds : List ObjectID
  pendingObjects : List ObjectCache
  -- the entries of a `WeakValueDictionary`: they go when their object is freed
  dedupAlive : Dict Nat PyObject
  dedupCache : Dict Nat ObjectCache
  cycleDedupCache : Dict Nat ObjectCache
  payloadHashToObjectId : Dict Bytes ObjectID
  -- the calls of the serializer, and the payload each random id was generated for
  serializeCalls : Nat
  generated : List Bytes
  -- what others have seen of the buffer
  serialized : List (PyObject × Bytes)
  returned : List (PyObject × ObjectCache)
  announced : List (ObjectID × ObjectContentType × Bytes)
  uploaded : List (ObjectID × Bytes)
  -- what had been returned, and how many ids had been generated, at the last `clear`
  returnedBefore : List (PyObject × ObjectCache)
  generatedBefore : Nat

abbrev BufferM := EStateM SubmitExn ObjectBuffer

def encode (text : String) : Bytes := text.toUTF8.toList

namespace ObjectBuffer

variable (config : BufferConfig)

/-- After `__init__`: the serializer has been sent. -/
def create : ObjectBuffer where
  validObjectIds := [config.serializerObjectId]
  pendingObjects := []
  dedupAlive := .empty
  dedupCache := .empty
  cycleDedupCache := .empty
  payloadHashToObjectId := .empty
  serializeCalls := 0
  generated := []
  serialized := []
  returned := []
  announced := [(config.serializerObjectId, .serializer, encode "serializer")]
  uploaded := [(config.serializerObjectId, config.serializerPayload)]
  returnedBefore := []
  generatedBefore := 0

def isValidObjectId (b : ObjectBuffer) (objectId : ObjectID) : Bool := objectId ∈ b.validObjectIds

def noteCall (b : ObjectBuffer) : ObjectBuffer := { b with serializeCalls := b.serializeCalls + 1 }

def noteSerialized (b : ObjectBuffer) (obj : PyObject) (payload : Bytes) : ObjectBuffer :=
  { b with
    serializeCalls := b.serializeCalls + 1
    serialized := b.serialized ++ [(obj, payload)] }

def noteReturned (b : ObjectBuffer) (obj : PyObject) (cache : ObjectCache) : ObjectBuffer :=
  { b with returned := b.returned ++ [(obj, cache)] }

def serialize (obj : PyObject) : BufferM Bytes := fun b =>
  match config.serialize b.serializeCalls obj with
  | none => .error .serializerError b.noteCall
  | some payload => .ok payload (b.noteSerialized obj payload)

/-- The id known for the payload, as long as it is valid. -/
def knownObjectId (b : ObjectBuffer) (payload : Bytes) : Option ObjectID :=
  match b.payloadHashToObjectId.get? (config.md5 payload) with
  | none => none
  | some objectId => if objectId ∈ b.validObjectIds then some objectId else none

def objectIdForPayload (b : ObjectBuffer) (payload : Bytes) : ObjectID × ObjectBuffer :=
  match b.knownObjectId config payload with
  | some objectId => (objectId, b)
  | none =>
    let objectId := config.generateObjectId b.generated.length
    (objectId,
      { b with
        generated := b.generated ++ [payload]
        payloadHashToObjectId := b.payloadHashToObjectId.set (config.md5 payload) objectId })

def bufferSendSerializedObject (b : ObjectBuffer) (objectCache : ObjectCache) : ObjectBuffer :=
  if objectCache.objectId ∈ b.validObjectIds then b
  else
    { b with
      pendingObjects := b.pendingObjects ++ [objectCache]
      validObjectIds := objectCache.objectId :: b.validObjectIds }

/-- The persistent entry for the object, as long as the object it was made for is alive. -/
def persistentDedup (b : ObjectBuffer) (obj : PyObject) : Option ObjectCache :=
  match b.dedupCache.get? obj.address with
  | none => none
  | some cached =>
    if cached.objectId ∈ b.validObjectIds ∧ b.dedupAlive.get? obj.address = some obj then some cached
    else none

def cycleDedup (b : ObjectBuffer) (obj : PyObject) : Option ObjectCache :=
  match b.cycleDedupCache.get? obj.address with
  | none => none
  | some cached => if cached.objectId ∈ b.validObjectIds then some cached else none

def dropStale (b : ObjectBuffer) (obj : PyObject) : ObjectBuffer :=
  { b with dedupCache := b.dedupCache.erase obj.address }

def lookupDedup (b : ObjectBuffer) (obj : PyObject) (ignorePersistent : Bool) :
    Option ObjectCache × ObjectBuffer :=
  if ignorePersistent then (b.cycleDedup obj, b)
  else
    match b.persistentDedup obj with
    | some cached => (some cached, b)
    | none => (b.cycleDedup obj, b.dropStale obj)

def rememberDedup (b : ObjectBuffer) (obj : PyObject) (cache : ObjectCache) : ObjectBuffer :=
  let remembered := { b with cycleDedupCache := b.cycleDedupCache.set obj.address cache }
  if obj.weakReferenceable then
    { remembered with
      dedupAlive := b.dedupAlive.set obj.address obj
      dedupCache := b.dedupCache.set obj.address cache }
  else remembered

/-- The end of both `buffer_send` calls. -/
def giveBack (obj : PyObject) (cache : ObjectCache) : BufferM ObjectCache := fun b =>
  .ok cache (b.noteReturned obj cache)

/-- `__construct_function` and `__construct_object`; they differ in the name. -/
def construct (obj : PyObject) (name : ObjectID → Bytes) : BufferM ObjectCache := do
  let payload ← serialize config obj
  let objectId ← modifyGet fun b => b.objectIdForPayload config payload
  return ⟨objectId, .object, name objectId, payload⟩

def constructFunction (fn : PyObject) : BufferM ObjectCache :=
  construct config fn fun objectId =>
    match config.functionName fn with
    | some name => encode name
    | none => encode ("<func " ++ config.reprObjectId objectId ++ ">")

def constructObject (obj : PyObject) (name : Option String) : BufferM ObjectCache :=
  construct config obj fun objectId =>
    let unnamed := encode ("<obj " ++ config.reprObjectId objectId ++ ">")
    match name with
    | some name => if name.isEmpty then unnamed else encode name
    | none => unnamed

def bufferSendFunction (fn : PyObject) : BufferM ObjectCache := do
  match ← modifyGet fun b => b.lookupDedup fn false with
  | some cached => giveBack fn cached
  | none =>
    let cache ← constructFunction config fn
    modify fun b => b.bufferSendSerializedObject cache
    modify fun b => b.rememberDedup fn cache
    giveBack fn cache

def bufferSendObject (obj : PyObject) (name : Option String) (reserialize dedup : Bool) :
    BufferM ObjectCache := do
  let cached ← if dedup then modifyGet fun b => b.lookupDedup obj reserialize else pure none
  match cached with
  | some cached => giveBack obj cached
  | none =>
    let cache ← constructObject config obj name
    modify fun b => b.bufferSendSerializedObject cache
    if dedup then
      modify fun b => b.rememberDedup obj cache
    giveBack obj cache

/-- The uploads that were started have run: some payloads are stored. -/
def runUploads (b : ObjectBuffer) (agent : AgentAnswer) : ObjectBuffer :=
  { b with
    announced := b.announced ++ b.pendingObjects.map fun c => (c.objectId, c.objectType, c.objectName)
    uploaded :=
      b.uploaded ++
        (b.pendingObjects.filter fun c => agent.upload c.objectId ≠ .raised).map fun c =>
          (c.objectId, c.objectPayload) }

def commitSendObjects (agent : AgentAnswer) : BufferM Unit := fun b =>
  if b.pendingObjects = [] then .ok () { b with cycleDedupCache := .empty }
  else if !agent.accepts then .error .connectorError b
  else if b.pendingObjects.all fun c => agent.upload c.objectId = .stored then
    .ok () { b.runUploads agent with pendingObjects := [], cycleDedupCache := .empty }
  else .error .uploadError (b.runUploads agent)

/-- The server deletes everything but the serializer, so what was stored before is forgotten. -/
def cleared (b : ObjectBuffer) : ObjectBuffer :=
  { b with
    pendingObjects := []
    validObjectIds := [config.serializerObjectId]
    dedupAlive := .empty
    dedupCache := .empty
    cycleDedupCache := .empty
    payloadHashToObjectId := .empty
    returned := []
    announced := b.announced.filter fun a => a.1 = config.serializerObjectId
    uploaded := b.uploaded.filter fun u => u.1 = config.serializerObjectId
    returnedBefore := b.returnedBefore ++ b.returned
    generatedBefore := b.generated.length }

def clear (accepts : Bool) : BufferM Unit := fun b =>
  if accepts then .ok () (b.cleared config) else .error .connectorError (b.cleared config)

end ObjectBuffer

/-- An argument of a task is an `ObjectReference` or any other object. -/
inductive ClientArgument where
  | reference (objectId : ObjectID)
  | object (obj : PyObject)
  deriving DecidableEq, Repr

/-- A node of a graph: a tuple that starts with a function (an argument that is not a string is
`none`), an `ObjectReference`, or any other object. -/
inductive GraphNode where
  | call (func : PyObject) (args : List (Option String))
  | reference (objectId : ObjectID)
  | object (obj : PyObject)
  deriving DecidableEq, Repr

structure CallNode where
  func : PyObject
  args : List String
  deriving DecidableEq, Repr

namespace Client

open ObjectBuffer

variable (config : BufferConfig)

def argumentObjectId (reserialize : Bool) : ClientArgument → BufferM ObjectID
  | .reference objectId => do
    if (← get).isValidObjectId objectId then return objectId
    throw (.missingObjects objectId)
  | .object obj => do
    return (← bufferSendObject config obj none reserialize true).objectId

/-- `__submit`: the object ids of the task's arguments. -/
def submitArguments (reserialize : Bool) (args : List ClientArgument) : BufferM (List ObjectID) :=
  args.mapM (argumentObjectId config reserialize)

/-- `submit_verbose`. `allArgs` is what `__convert_kwargs_to_args` returns or raises. -/
def submitVerbose (fn : PyObject) (allArgs : Except SubmitExn (List ClientArgument))
    (reserialize : Bool) (agent : AgentAnswer) : BufferM (ObjectID × List ObjectID) := do
  let function ← bufferSendFunction config fn
  let args ← match allArgs with
    | .ok args => pure args
    | .error e => throw e
  let functionArgs ← submitArguments config reserialize args
  commitSendObjects agent
  return (function.objectId, functionArgs)

/-- `starmap`: unpacking the result of `zip` raises when there is no item. -/
def starmap (fn : PyObject) (iterable : List (List ClientArgument)) (reserialize : Bool)
    (agent : AgentAnswer) : BufferM (List (ObjectID × List ObjectID)) := do
  let function ← bufferSendFunction config fn
  let tasks ← iterable.mapM fun args => do
    return (function.objectId, ← submitArguments config reserialize args)
  if tasks = [] then throw .valueError
  commitSendObjects agent
  return tasks

/-- One round of `__split_data_and_graph`: a call, or the object id of the node. -/
def splitNode (reserialize : Bool) (node : String × GraphNode) :
    BufferM (String × (CallNode ⊕ ObjectID)) :=
  match node.2 with
  | .call func args =>
    match args.mapM id with
    | some names => return (node.1, .inl ⟨func, names⟩)
    | none => throw .typeError
  | .reference objectId => return (node.1, .inr objectId)
  | .object obj => do
    return (node.1, .inr (← bufferSendObject config obj (some node.1) reserialize true).objectId)

def callGraph (nodes : List (String × (CallNode ⊕ ObjectID))) : List (String × CallNode) :=
  nodes.filterMap fun node => node.2.getLeft?.map fun call => (node.1, call)

/-- `__check_graph`. -/
def checkGraph (nodes : List (String × (CallNode ⊕ ObjectID))) (keys : List String) :
    Except SubmitExn Unit :=
  let names := nodes.map Prod.fst
  let calls := (callGraph nodes).map fun node => (node.1, node.2.args)
  if ¬keys.Nodup then .error .keyError
  else if ¬keys.all (· ∈ names) then .error .keyError
  else if ¬calls.all fun node => node.2.all (· ∈ names) then .error .keyError
  else
    match ((TopologicalSorter.empty.mergeGraph calls).2.prepare).1 with
    | .ok _ => .ok ()
    | .error _ => .error .cycleError

/-- `get`, from the graph that `cull_graph` returns up to the commit. -/
def getGraph (graph : List (String × GraphNode)) (keys : List String) (reserialize : Bool)
    (agent : AgentAnswer) : BufferM (List ObjectID) := do
  let nodes ← graph.mapM (splitNode config reserialize)
  match checkGraph nodes keys with
  | .ok _ => pure ()
  | .error e => throw e
  let functions ← (callGraph nodes).mapM fun node => do
    return (← bufferSendFunction config node.2.func).objectId
  commitSendObjects agent
  return functions

def sendObject (obj : PyObject) (name : Option String) : BufferM ObjectCache :=
  bufferSendObject config obj name false false

end Client

/-- The calls that reach the buffer, directly or through the client. -/
inductive ClientCall where
  | bufferSendFunction (fn : PyObject)
  | bufferSendObject (obj : PyObject) (name : Option String) (reserialize dedup : Bool)
  | commitSendObjects (agent : AgentAnswer)
  | clear (accepts : Bool)
  | submitVerbose (fn : PyObject) (allArgs : Except SubmitExn (List ClientArgument))
      (reserialize : Bool) (agent : AgentAnswer)
  | starmap (fn : PyObject) (iterable : List (List ClientArgument)) (reserialize : Bool)
      (agent : AgentAnswer)
  | get (graph : List (String × GraphNode)) (keys : List String) (reserialize : Bool)
      (agent : AgentAnswer)
  | sendObject (obj : PyObject) (name : Option String)

namespace ClientCall

def run (config : BufferConfig) : ClientCall → BufferM Unit
  | bufferSendFunction fn => do let _ ← ObjectBuffer.bufferSendFunction config fn
  | bufferSendObject obj name reserialize dedup => do
    let _ ← ObjectBuffer.bufferSendObject config obj name reserialize dedup
  | commitSendObjects agent => ObjectBuffer.commitSendObjects agent
  | clear accepts => ObjectBuffer.clear config accepts
  | submitVerbose fn allArgs reserialize agent => do
    let _ ← Client.submitVerbose config fn allArgs reserialize agent
  | starmap fn iterable reserialize agent => do
    let _ ← Client.starmap config fn iterable reserialize agent
  | get graph keys reserialize agent => do
    let _ ← Client.getGraph config graph keys reserialize agent
  | sendObject obj name => do let _ ← Client.sendObject config obj name

def argumentObjects (args : List ClientArgument) : List PyObject :=
  args.filterMap fun
    | .reference _ => none
    | .object obj => some obj

def nodeObjects (graph : List (String × GraphNode)) : List PyObject :=
  graph.filterMap fun node =>
    match node.2 with
    | .call func _ => some func
    | .reference _ => none
    | .object obj => some obj

/-- The objects that the caller passes: they are alive during the call. -/
def objects : ClientCall → List PyObject
  | bufferSendFunction fn => [fn]
  | bufferSendObject obj _ _ _ => [obj]
  | commitSendObjects _ => []
  | clear _ => []
  | submitVerbose fn (.ok args) _ _ => fn :: argumentObjects args
  | submitVerbose fn (.error _) _ _ => [fn]
  | starmap fn iterable _ _ => fn :: iterable.flatMap argumentObjects
  | get graph _ _ _ => nodeObjects graph
  | sendObject obj _ => [obj]

end ClientCall

/-- The buffer in a Python process: the objects that are alive, and how many there have been. -/
structure ClientSession where
  buffer : ObjectBuffer
  live : List PyObject
  allocated : Nat

inductive SessionEvent where
  | allocate (address : Nat) (weakReferenceable : Bool)
  | free (obj : PyObject)
  | call (c : ClientCall)

namespace ClientSession

variable (config : BufferConfig)

def start : ClientSession := ⟨.create config, [], 0⟩

/-- A weak reference to a freed object is dropped. -/
def forget (b : ObjectBuffer) (obj : PyObject) : ObjectBuffer :=
  if b.dedupAlive.get? obj.address = some obj then
    { b with dedupAlive := b.dedupAlive.erase obj.address }
  else b

/-- Nothing happens where the address is in use or an object that is named is not alive. -/
def step (s : ClientSession) : SessionEvent → ClientSession
  | .allocate address weakReferenceable =>
    if address ∈ s.live.map PyObject.address then s
    else
      { s with
        live := ⟨s.allocated, address, weakReferenceable⟩ :: s.live
        allocated := s.allocated + 1 }
  | .free obj =>
    if obj ∈ s.live then { s with buffer := forget s.buffer obj, live := s.live.erase obj } else s
  | .call c =>
    if ∀ obj ∈ c.objects, obj ∈ s.live then { s with buffer := endState (c.run config) s.buffer }
    else s

def run (events : List SessionEvent) : ClientSession := events.foldl (step config) (start config)

end ClientSession

end Scaler
