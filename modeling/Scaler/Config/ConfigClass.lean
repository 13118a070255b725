import Scaler.Collections.Dict

/-! Config classes: the options that a class declares, how they become arguments of an
`argparse.ArgumentParser`, and the two ways back to an object, `_from_args` and `_from_toml`. Sub-tables of
a TOML section are left out: a section is flat. The flag `--config` is left out too; its name is reserved. -/

namespace Scaler.Config

open Collections

abbrev Text := List Char

/-- The values of options: what TOML has, `None`, and the objects that conversions build. -/
inductive Value (O : Type) where
  | str (text : Text)
  | int (n : Int)
  | bool (b : Bool)
  | list (items : List (Value O))
  | none
  | object (o : O)

inductive ParseError where
  | missing
  | invalid
  deriving DecidableEq, Repr

/-- The `nargs` of a positional argument: it needs strings, or can do without (`"?"` and `"*"`). -/
inductive Arity where
  | needed
  | optional
  | any
  deriving DecidableEq, Repr

/-- A field that is not a config class. `required` is the one of an option, a positional argument has none;
`untyped` is set for `store_true` and `store_false`, where argparse converts nothing; `convert` is the `type` of
the metadata or of the annotation, `stored` what argparse makes of the strings of the command line, and
`allowed` the check of `choices` that a default has to pass where argparse stores it in place of strings. -/
structure OptionField (O : Type) where
  name : Text
  long : Option Text
  positional : Option Arity
  positionalName : Option Text
  required : Bool
  untyped : Bool
  allowed : Value O → Bool
  envVar : Option Text
  default : Option (Value O)
  convert : Text → Option (Value O)
  stored : List Text → Option (Value O)

/-- The fields of a config class in their order. -/
inductive ConfigClass (O : Type) where
  | nil
  | field (o : OptionField O) (rest : ConfigClass O)
  | nested (name : Text) (long : Option Text) (inner rest : ConfigClass O)

/-- An instance of a config class. -/
inductive ConfigObject (O : Type) where
  | nil
  | field (name : Text) (value : Value O) (rest : ConfigObject O)
  | nested (name : Text) (inner rest : ConfigObject O)

/-- `key.replace("-", "_")`. -/
def normalize (key : Text) : Text := key.map fun c => if c = '-' then '_' else c

/-- The key of a field in a section: its long name without dashes in front. -/
def longKey (name : Text) (long : Option Text) : Text :=
  normalize ((long.getD ('-' :: '-' :: name.map fun c => if c = '_' then '-' else c)).dropWhile (· = '-'))

namespace OptionField

variable {O : Type} (o : OptionField O)

def key : Text := longKey o.name o.long

/-- The name that argparse stores the argument under. -/
def dest : Text := if o.positional.isSome then o.positionalName.getD o.name else o.name

/-- `_from_args` and `_from_toml` convert a string. -/
def reconvert : Value O → Except ParseError (Value O)
  | .str text =>
    match o.convert text with
    | some value => .ok value
    | none => .error .invalid
  | value => .ok value

end OptionField

namespace ConfigClass

variable {O : Type}

def options : ConfigClass O → List (OptionField O)
  | nil => []
  | field o rest => o :: options rest
  | nested _ _ inner rest => options inner ++ options rest

end ConfigClass

section Argparse

variable {O : Type}

structure Action (O : Type) where
  dest : Text
  positional : Option Arity
  required : Bool
  default : Value O
  argType : Text → Option (Value O)
  allowed : Value O → Bool
  stored : List Text → Option (Value O)

namespace Action

variable (a : Action O)

/-- Whether the argument is found where the command line has no string for it. -/
def takesNone : Bool := a.positional = some .optional ∨ a.positional = some .any

/-- Whether the positional arguments behind it can be found. -/
def passes (cli : Text → Option (List Text)) : Bool := (cli a.dest).isSome ∨ a.positional ≠ some .needed

/-- `_get_value` of a string. -/
def getValue (value : Value O) : Except ParseError (Value O) :=
  match value with
  | .str text =>
    match a.argType text with
    | some value => .ok value
    | none => .error .invalid
  | value => .ok value

/-- `_check_value`. -/
def checkValue (value : Value O) : Except ParseError (Value O) := if a.allowed value then .ok value else .error .invalid

/-- `_get_values` without strings. -/
def getValues (value : Value O) : Except ParseError (Value O) :=
  match a.positional, value with
  | some .any, .none => a.checkValue (.list [])
  | some .any, value => a.checkValue value
  | _, .str text => (a.getValue (.str text)).bind a.checkValue
  | _, value => .ok value

/-- What is stored for an argument without strings. -/
def takeDefault (found : Bool) (value : Value O) : Except ParseError (Value O) :=
  if found then a.getValues value else a.getValue value

end Action

structure Parser (O : Type) where
  actions : List (Action O)
  defaults : Dict Text (Value O)

namespace Parser

def setDefaults (p : Parser O) (defaults : Dict Text (Value O)) : Parser O where
  actions := p.actions.map fun a =>
    match defaults.get? a.dest with
    | some value => { a with default := value }
    | none => a
  defaults := defaults.entries.foldl (fun d e => d.set e.1 e.2) p.defaults

/-- A default that was injected counts as given. -/
def relax (p : Parser O) (injected : Text → Bool) : Parser O :=
  { p with actions := p.actions.map fun a => { a with required := a.required && !injected a.dest } }

/-- What an argument is stored as. -/
def actionValue (cli : Text → Option (List Text)) (a : Action O) (found : Bool) : Except ParseError (Value O) :=
  match cli a.dest with
  | some arguments =>
    match a.stored arguments with
    | some value => .ok value
    | none => .error .invalid
  | none => if a.required && !found then .ok a.default else a.takeDefault found a.default

/-- The arguments, and whether a positional one is found without strings: it is if it can do without and every
positional argument before it is found. -/
def consumePositionals (cli : Text → Option (List Text)) : Bool → List (Action O) → List (Action O × Bool)
  | _, [] => []
  | reached, a :: actions => (a, reached && a.takesNone) :: consumePositionals cli (reached && a.passes cli) actions

/-- An attribute that is there already stays. -/
def addMissing (ns : Dict Text (Value O)) (e : Text × Value O) : Dict Text (Value O) :=
  if ns.contains e.1 then ns else ns.set e.1 e.2

def values (cli : Text → Option (List Text)) : List (Action O × Bool) → Except ParseError (List (Text × Value O))
  | [] => .ok []
  | (a, found) :: actions =>
    match actionValue cli a found with
    | .error e => .error e
    | .ok value => (values cli actions).map ((a.dest, value) :: ·)

def parseArgs (p : Parser O) (cli : Text → Option (List Text)) : Except ParseError (Dict Text (Value O)) :=
  let actions := consumePositionals cli true p.actions
  match values cli actions with
  | .error e => .error e
  | .ok values =>
    if actions.any fun a => a.1.required && !a.2 && (cli a.1.dest).isNone then .error .missing
    else .ok ((values ++ p.defaults.entries).foldl addMissing Dict.empty)

end Parser

end Argparse

section Loading

variable {O : Type}

/-- What argparse holds an argument to be: a positional one by its `nargs` and its default. -/
def OptionField.isRequired (o : OptionField O) : Bool :=
  match o.positional with
  | none => o.required
  | some .needed => true
  | some .optional => false
  | some .any => o.default.isNone

def OptionField.action (o : OptionField O) : Action O where
  dest := o.dest
  positional := o.positional
  required := o.isRequired
  default := o.default.getD .none
  argType := fun text => if o.untyped then some (.str text) else o.convert text
  allowed := o.allowed
  stored := o.stored

def configureParser : ConfigClass O → List (Action O)
  | .nil => []
  | .field o rest => o.action :: configureParser rest
  | .nested _ _ inner rest => configureParser inner ++ configureParser rest

/-- The keys of the fields of a nested class, its own nested classes among them. -/
def nestedKeyToDest : ConfigClass O → Dict Text Text → Dict Text Text
  | .nil, keyToDest => keyToDest
  | .field o rest, keyToDest => nestedKeyToDest rest (keyToDest.set o.key o.name)
  | .nested name long _ rest, keyToDest => nestedKeyToDest rest (keyToDest.set (longKey name long) name)

def keyToDest : ConfigClass O → Dict Text Text → Dict Text Text
  | .nil, d => d
  | .field o rest, d => keyToDest rest (d.set o.key o.name)
  | .nested _ _ inner rest, d => keyToDest rest (nestedKeyToDest inner d)

def addDefault (dests : Dict Text Text) (result : Dict Text (Value O)) (e : Text × Value O) : Dict Text (Value O) :=
  match dests.get? (normalize e.1) with
  | some dest => result.set dest e.2
  | none => result

def tomlSectionDefaults (sectionData : Dict Text (Value O)) (cls : ConfigClass O) : Dict Text (Value O) :=
  sectionData.entries.foldl (addDefault (keyToDest cls Dict.empty)) Dict.empty

/-- The environment variables that are set, converted. -/
def envDefaults (environ : Text → Option Text) :
    ConfigClass O → Dict Text (Value O) → Except ParseError (Dict Text (Value O))
  | .nil, result => .ok result
  | .field o rest, result =>
    match o.envVar.bind environ with
    | some raw =>
      match o.convert raw with
      | some value => envDefaults environ rest (result.set o.name value)
      | none => .error .invalid
    | none => envDefaults environ rest result
  | .nested _ _ inner rest, result =>
    match envDefaults environ inner result with
    | .error e => .error e
    | .ok result => envDefaults environ rest result

end Loading

section Reconstruction

variable {O : Type}

/-- The keyword arguments of a constructor. -/
inductive Keywords (O : Type) where
  | nil
  | field (o : OptionField O) (given : Option (Value O)) (rest : Keywords O)
  | nested (name : Text) (inner : ConfigObject O) (rest : Keywords O)

/-- The constructor of the dataclass: a field without a default has to be given. -/
def construct : Keywords O → Except ParseError (ConfigObject O)
  | .nil => .ok .nil
  | .field o given rest =>
    match given.or o.default with
    | none => .error .missing
    | some value => (construct rest).map (.field o.name value)
  | .nested name inner rest => (construct rest).map (.nested name inner)

def normalizeKeys (data : Dict Text (Value O)) : Dict Text (Value O) :=
  data.entries.foldl (fun d e => d.set (normalize e.1) e.2) Dict.empty

def tomlKeywords : ConfigClass O → Dict Text (Value O) → Except ParseError (Keywords O)
  | .nil, _ => .ok .nil
  | .field o rest, normalized =>
    match normalized.get? o.key with
    | none => (tomlKeywords rest normalized).map (.field o none)
    | some value =>
      match o.reconvert value with
      | .error e => .error e
      | .ok value => (tomlKeywords rest normalized).map (.field o (some value))
  | .nested name _ inner rest, normalized =>
    match (tomlKeywords inner (normalizeKeys normalized)).bind construct with
    | .error e => .error e
    | .ok config => (tomlKeywords rest normalized).map (.nested name config)

def fromToml (cls : ConfigClass O) (data : Dict Text (Value O)) : Except ParseError (ConfigObject O) :=
  (tomlKeywords cls (normalizeKeys data)).bind construct

/-- The arguments are popped one after the other. -/
def argsKeywords : ConfigClass O → Dict Text (Value O) → Except ParseError (Keywords O × Dict Text (Value O))
  | .nil, kwargs => .ok (.nil, kwargs)
  | .field o rest, kwargs =>
    match kwargs.get? o.name with
    | none => (argsKeywords rest kwargs).map fun (keywords, kwargs) => (.field o none keywords, kwargs)
    | some value =>
      match o.reconvert value with
      | .error e => .error e
      | .ok value =>
        (argsKeywords rest (kwargs.erase o.name)).map fun (keywords, kwargs) => (.field o (some value) keywords, kwargs)
  | .nested name _ inner rest, kwargs =>
    match argsKeywords inner kwargs with
    | .error e => .error e
    | .ok (keywords, kwargs) =>
      match construct keywords with
      | .error e => .error e
      | .ok config => (argsKeywords rest kwargs).map fun (keywords, kwargs) => (.nested name config keywords, kwargs)

def fromArgs (cls : ConfigClass O) (kwargs : Dict Text (Value O)) : Except ParseError (ConfigObject O) :=
  (argsKeywords cls kwargs).bind fun (keywords, _) => construct keywords

end Reconstruction

section Parse

variable {O : Type}

/-- Two layers of defaults on a parser, and the arguments that they make optional. -/
def injectDefaults (p : Parser O) (tomlDefs envDefs : Dict Text (Value O)) : Parser O :=
  ((p.setDefaults tomlDefs).setDefaults envDefs).relax fun dest => tomlDefs.contains dest || envDefs.contains dest

def parseWithSection (cls : ConfigClass O) (sectionData : Dict Text (Value O)) (environ : Text → Option Text)
    (cli : Text → Option (List Text)) : Except ParseError (ConfigObject O) :=
  match envDefaults environ cls Dict.empty with
  | .error e => .error e
  | .ok envDefs =>
    let parser := injectDefaults ⟨configureParser cls, Dict.empty⟩ (tomlSectionDefaults sectionData cls) envDefs
    (parser.parseArgs cli).bind (fromArgs cls)

end Parse

end Scaler.Config
