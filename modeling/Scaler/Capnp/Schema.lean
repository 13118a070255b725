import Mathlib.Logic.Basic

/-! Cap'n Proto schemas and the messages that are built and read with them. A builder is given
the fields that are set, a reader has a value for every field. -/

namespace Scaler.Capnp

abbrev Bytes := List UInt8

/-- The fields of a struct that is built are those that were set, in the order of the calls. A struct that is read
has a value for all its fields, and for one member of its union. -/
inductive Content where
  | void
  | bool (value : Bool)
  | int (value : Int)
  | text (value : String)
  | data (value : Bytes)
  | enum (raw : Nat)
  | list (items : List Content)
  | struct (entries : List (String × Content))
  deriving Repr

mutual

inductive CapnpType where
  | void
  | bool
  | int (bits : Nat)
  | uint (bits : Nat)
  | text
  | data
  | enum (schemaId enumerants : Nat)
  | list (element : CapnpType)
  | struct (name : String) (fields : Fields)

/-- The fields of a struct in the order of the schema. The members of its union have a
discriminant. -/
inductive Fields where
  | nil
  | cons (name : String) (discriminant : Option Nat) (default : Content) (type : CapnpType) (rest : Fields)

end

inductive PyError where
  | attributeError
  | typeError
  | valueError
  | keyError
  | indexError
  | overflowError
  | runtimeError
  deriving DecidableEq, Repr

/-- A step into a message: a field of a struct or an item of a list. -/
inductive PathItem where
  | field (name : String)
  | index (i : Nat)
  deriving DecidableEq, Repr

namespace Fields

/-- `findFieldByName`: whether the field is a member of the union, and its type. -/
def find : Fields → String → Option (Bool × CapnpType)
  | .nil, _ => none
  | .cons name discriminant _ type rest, n => if n = name then some (discriminant.isSome, type) else rest.find n

def names : Fields → List String
  | .nil => []
  | .cons name _ _ _ rest => name :: rest.names

/-- The members of the union. -/
def members : Fields → List String
  | .nil => []
  | .cons name discriminant _ _ rest => if discriminant.isSome then name :: rest.members else rest.members

/-- The member that is active in a struct none of whose members was set. -/
def firstMember : Fields → Option String
  | .nil => none
  | .cons name discriminant _ _ rest => if discriminant = some 0 then some name else rest.firstMember

/-- The member that was set last, which is the one that `which` tells of a reader. -/
def active (fields : Fields) (entries : List (String × Content)) : Option String :=
  ((entries.reverse.find? fun entry => entry.1 ∈ fields.members).map Prod.fst).or fields.firstMember

end Fields

mutual

/-- What the reader of a message has to have: what was not set has its default, and of a union there is the member
that was set last. -/
def complete : CapnpType → Content → Content
  | .list element, .list items => .list (items.map (complete element))
  | .struct _ fields, .struct entries => .struct (completeFields (fields.active entries) entries fields)
  | _, content => content

def completeFields (active : Option String) (entries : List (String × Content)) : Fields → List (String × Content)
  | .nil => []
  | .cons name discriminant default type rest =>
    if discriminant.isSome ∧ active ≠ some name then completeFields active entries rest
    else (name, complete type ((entries.lookup name).getD default)) :: completeFields active entries rest

end

/-- The library: whether `set` and `init` of a builder have room for a text or data of so many bytes or for a list of
so many elements, or throw; `messageToFlatArray` of a builder; and `getRoot` of a `FlatArrayMessageReader` with
a traversal limit, which may throw. -/
structure Library where
  allocates : CapnpType → Nat → Bool
  messageToFlatArray : CapnpType → Content → Bytes
  getRoot : CapnpType → Nat → Bytes → Option Content

/-- The way of `with_lazy_struct_reader` through a message. A member of the union that is not
active cannot be read. -/
def walk : List PathItem → CapnpType × Content → Except PyError (CapnpType × Content)
  | [], current => .ok current
  | .field name :: path, (.struct _ fields, .struct entries) =>
    match fields.find name with
    | none => .error .attributeError
    | some (_, type) =>
      match entries.lookup name with
      | none => .error .runtimeError
      | some content => walk path (type, content)
  | .field _ :: _, _ => .error .typeError
  | .index i :: path, (.list element, .list items) =>
    match items[i]? with
    | none => .error .indexError
    | some content => walk path (element, content)
  | .index _ :: _, _ => .error .typeError

end Scaler.Capnp
