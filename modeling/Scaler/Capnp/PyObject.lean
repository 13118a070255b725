import Mathlib.Algebra.Ring.Int.Defs
import Mathlib.Algebra.Ring.Nat
import Scaler.Capnp.Schema

/-! The Python objects of the protocol. An object that was made from bytes keeps the bytes and a
path into them; what is read of it is decoded then and kept on the object. -/

namespace Scaler.Capnp

/-- The `_capnp_*` attributes of an object that was made from bytes. -/
structure Lazy where
  source : Bytes
  traversalLimit : Nat
  root : CapnpType
  path : List PathItem

/-- The class of an object is given by its schema, `variantName` is its `_variant_name` and `dict`
its other attributes. An `IntEnum` knows its type. -/
inductive PyValue where
  | none
  | bool (value : Bool)
  | int (value : Int)
  | str (value : String)
  | bytes (value : Bytes)
  | enum (schemaId raw : Nat)
  | list (items : List PyValue)
  | object (type : CapnpType) (source : Option Lazy) (variantName : Option String) (dict : List (String × PyValue))
  | method

/-- What a reader of an object sees of a value: structs and lists are looked into. -/
inductive Observation where
  | none
  | bool (value : Bool)
  | int (value : Int)
  | str (value : String)
  | bytes (value : Bytes)
  | enum (schemaId raw : Nat)
  | list (length : Nat)
  | struct (type : CapnpType)
  | variant (name : String)
  | method

/-- The structs that have a name of their own, and `Message`, which has nothing but a union. -/
structure Registry where
  topLevel : List (String × CapnpType)
  messageName : String
  messageFields : Fields
  messageUnion : messageFields.members = messageFields.names

namespace Registry

def message (registry : Registry) : CapnpType := .struct registry.messageName registry.messageFields

end Registry

/-- The attributes of the classes `CapnpStruct` and `CapnpUnionStruct` that a field could hide
behind; what else they have contains an underscore at its start or is a nested type. -/
def classAttributes (fields : Fields) : List String :=
  if fields.members = [] then ["to_bytes", "from_bytes"] else ["to_bytes", "from_bytes", "which"]

section

variable (library : Library)

/-- `with_lazy_struct_reader`: what stands at the path of the object. -/
def withLazyStructReader (source : Lazy) : Except PyError (CapnpType × Content) :=
  if source.source.length % 8 ≠ 0 then .error .valueError
  else match library.getRoot source.root source.traversalLimit source.source with
    | none => .error .runtimeError
    | some root => walk source.path (source.root, root)

/-- The items of a list are converted in turn. -/
def convertItems (convert : Nat → Content → Except PyError PyValue) : Nat → List Content → Except PyError (List PyValue)
  | _, [] => .ok []
  | i, content :: contents => do
    let item ← convert i content
    let items ← convertItems convert (i + 1) contents
    .ok (item :: items)

/-- A struct becomes an object that has read nothing yet. -/
def dynamicValueToPyObject : CapnpType → Content → Lazy → Except PyError PyValue
  | .void, _, _ => .ok .none
  | .bool, .bool value, _ => .ok (.bool value)
  | .int _, .int value, _ => .ok (.int value)
  | .uint _, .int value, _ => .ok (.int value)
  | .text, .text value, _ => .ok (.str value)
  | .data, .data value, _ => .ok (.bytes value)
  | .enum schemaId enumerants, .enum raw, _ =>
    if raw < enumerants then .ok (.enum schemaId raw) else .error .valueError
  | .struct name fields, _, source => .ok (.object (.struct name fields) (some source) none [])
  | .list element, .list items, source => do
    let items ← convertItems (fun i content =>
      dynamicValueToPyObject element content { source with path := source.path ++ [.index i] }) 0 items
    .ok (.list items)
  | _, _, _ => .error .runtimeError

/-- `load_struct_field`. -/
def loadStructField (source : Option Lazy) (name : String) : Except PyError PyValue :=
  match source with
  | none => .error .attributeError
  | some source =>
    match withLazyStructReader library source with
    | .error err => .error err
    | .ok (.struct _ fields, .struct entries) =>
      match fields.find name with
      | none => .error .attributeError
      | some (isUnionField, type) =>
        if isUnionField ∧ fields.active entries ≠ some name then .error .attributeError
        else match entries.lookup name with
          | none => .error .runtimeError
          | some content =>
            dynamicValueToPyObject type content { source with path := source.path ++ [.field name] }
    | .ok _ => .error .runtimeError

/-- `get_active_union_field_name`. -/
def getActiveUnionFieldName (source : Option Lazy) : Except PyError String :=
  match source with
  | none => .error .attributeError
  | some source =>
    match withLazyStructReader library source with
    | .error err => .error err
    | .ok (.struct _ fields, .struct entries) =>
      match fields.active entries with
      | some name => .ok name
      | none => .error .attributeError
    | .ok _ => .error .runtimeError

/-- An attribute is looked up on the object, then on its class, then in the bytes. -/
def getAttr (value : PyValue) (name : String) : Except PyError PyValue :=
  match value with
  | .object (.struct _ fields) source _ dict =>
    match dict.lookup name with
    | some attr => .ok attr
    | none => if name ∈ classAttributes fields then .ok .method else loadStructField library source name
  | _ => .error .attributeError

/-- What `capnp_struct_get_attr` read is kept on the object, and later changed in place. -/
def keepAttr (value : PyValue) (name : String) (attr : PyValue) : PyValue :=
  match value with
  | .object (.struct structName fields) source variantName dict =>
    if (dict.lookup name).isNone ∧ name ∈ classAttributes fields then value
    else .object (.struct structName fields) source variantName
      ((name, attr) :: dict.filter fun entry => entry.1 ≠ name)
  | _ => value

/-- `capnp_union_which` keeps the name. -/
def unionWhich (value : PyValue) : Except PyError (String × PyValue) :=
  match value with
  | .object (.struct structName fields) source variantName dict =>
    if fields.members = [] then .error .attributeError
    else match variantName with
      | some name => .ok (name, value)
      | none => do
        let name ← getActiveUnionFieldName library source
        .ok (name, .object (.struct structName fields) source (some name) dict)
  | _ => .error .attributeError

/-- Reading along a path: every attribute on the way is kept. -/
def visit (query : PyValue → Except PyError Observation × PyValue) :
    List PathItem → PyValue → Except PyError Observation × PyValue
  | [], value => query value
  | .field name :: path, value =>
    match getAttr library value name with
    | .error err => (.error err, value)
    | .ok attr =>
      let (result, attr) := visit query path attr
      (result, keepAttr value name attr)
  | .index i :: path, .list items =>
    match items[i]? with
    | none => (.error .indexError, .list items)
    | some item =>
      let (result, item) := visit query path item
      (result, .list (items.set i item))
  | .index _ :: _, value => (.error .typeError, value)

def observe : PyValue → Observation
  | .none => .none
  | .bool value => .bool value
  | .int value => .int value
  | .str value => .str value
  | .bytes value => .bytes value
  | .enum schemaId raw => .enum schemaId raw
  | .list items => .list items.length
  | .object type _ _ _ => .struct type
  | .method => .method

/-- An expression over an object: the attributes and indices of `path`, and possibly a call of
`which()` at the end. -/
structure Access where
  path : List PathItem
  which : Bool
  deriving DecidableEq, Repr

def query (which : Bool) (value : PyValue) : Except PyError Observation × PyValue :=
  if which then
    match unionWhich library value with
    | .ok (name, value) => (.ok (.variant name), value)
    | .error err => (.error err, value)
  else (.ok (observe value), value)

def access (value : PyValue) (a : Access) : Except PyError Observation × PyValue :=
  visit library (query library a.which) a.path value

/-- The object after it was read at will. -/
def afterReads (value : PyValue) (reads : List Access) : PyValue :=
  reads.foldl (fun value a => (access library value a).2) value

/-- `PyObject_IsTrue`. -/
def isTrue : PyValue → Bool
  | .none => false
  | .bool value => value
  | .int value => value ≠ 0
  | .str value => value ≠ ""
  | .bytes value => value ≠ []
  | .enum _ raw => raw ≠ 0
  | .list items => items.length ≠ 0
  | _ => true

/-- `PyLong_Check`: a `bool` and an `IntEnum` are integers. -/
def asLong : PyValue → Except PyError Int
  | .bool value => .ok (if value then 1 else 0)
  | .int value => .ok value
  | .enum _ raw => .ok raw
  | _ => .error .typeError

/-- `PySequence_Fast`. -/
def asSequence : PyValue → Except PyError (List PyValue)
  | .list items => .ok items
  | .str value => .ok (value.toList.map fun c => .str (String.ofList [c]))
  | .bytes value => .ok (value.map fun b => .int b.toNat)
  | _ => .error .typeError

mutual

/-- `set_dynamic_field` and `set_dynamic_list_element`: the content a value is stored as. -/
def setDynamicValue : CapnpType → PyValue → Except PyError Content
  | .void, _ => .ok .void
  | .bool, value => .ok (.bool (isTrue value))
  | .int bits, value => do
    let i ← asLong value
    if -2 ^ 63 ≤ i ∧ i < 2 ^ 63 then
      if -2 ^ (bits - 1) ≤ i ∧ i < 2 ^ (bits - 1) then .ok (.int i) else .error .runtimeError
    else .error .overflowError
  | .uint bits, value => do
    let i ← asLong value
    if 0 ≤ i ∧ i < 2 ^ 64 then if i < 2 ^ bits then .ok (.int i) else .error .runtimeError
    else .error .overflowError
  | .text, .str value => if library.allocates .text value.utf8ByteSize then .ok (.text value) else .error .runtimeError
  | .text, _ => .error .typeError
  | .data, .bytes value => if library.allocates .data value.length then .ok (.data value) else .error .runtimeError
  | .data, _ => .error .typeError
  | .enum _ enumerants, value => do
    let i ← asLong value
    if i < 0 ∨ 2 ^ 64 ≤ i then .error .overflowError
    else
      let raw := i.toNat % 2 ^ 16
      if raw < enumerants then .ok (.enum raw) else .error .runtimeError
  | .list element, value => do
    let items ← asSequence value
    let size := items.length % 2 ^ 32
    if library.allocates (.list element) size then
      let contents ← (items.take size).mapM (setDynamicValue element)
      .ok (.list contents)
    else .error .runtimeError
  | .struct _ fields, value => do
    let entries ← setDynamicStruct value fields []
    .ok (.struct entries)

/-- The attributes that an object does not have are skipped; one that it has is read twice, but
the second time it is kept. -/
def setDynamicStruct (value : PyValue) :
    Fields → List (String × Content) → Except PyError (List (String × Content))
  | .nil, entries => .ok entries
  | .cons name _ _ type rest, entries =>
    match getAttr library value name with
    | .error _ => setDynamicStruct value rest entries
    | .ok attr => do
      let content ← setDynamicValue type attr
      setDynamicStruct value rest (entries ++ [(name, content)])

end

variable (registry : Registry)

/-- `struct_to_bytes`: the schema is looked up by the name of the class. -/
def structToBytes (typeName : String) (value : PyValue) : Except PyError Bytes :=
  match registry.topLevel.lookup typeName with
  | none => .error .keyError
  | some type => do
    let content ← setDynamicValue library type value
    .ok (library.messageToFlatArray type content)

def messageToBytes (variantName : String) (inner : PyValue) : Except PyError Bytes :=
  match registry.messageFields.find variantName with
  | none => .error .keyError
  | some (_, type) => do
    let content ← setDynamicValue library type inner
    .ok (library.messageToFlatArray registry.message (.struct [(variantName, content)]))

/-- `to_bytes` of `CapnpUnionStruct` and of `CapnpStruct`. -/
def toBytes (value : PyValue) : Except PyError Bytes :=
  match value with
  | .object (.struct name fields) _ _ _ =>
    if fields.members = [] then structToBytes library registry name value
    else do
      let (variantName, value) ← unionWhich library value
      let payload ← getAttr library value variantName
      messageToBytes library registry variantName payload
  | _ => .error .attributeError

/-- `read_struct_from_buffer`. -/
def readStructFromBuffer (type : CapnpType) (data : Bytes) (traversalLimit : Nat) : Except PyError PyValue :=
  if data.length % 8 ≠ 0 then .error .valueError
  else match library.getRoot type traversalLimit data with
    | none => .error .runtimeError
    | some root => dynamicValueToPyObject type root ⟨data, traversalLimit, type, []⟩

/-- `from_bytes` of the class of a struct. -/
def fromBytes (type : CapnpType) (data : Bytes) (traversalLimit : Nat) : Except PyError PyValue :=
  match type with
  | .struct name fields =>
    if fields.members = [] then
      match registry.topLevel.lookup name with
      | none => .error .keyError
      | some type => readStructFromBuffer library type data traversalLimit
    else readStructFromBuffer library registry.message data traversalLimit
  | _ => .error .attributeError

end

end Scaler.Capnp
