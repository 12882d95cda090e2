/-
  Variables: definitions with a declared type and scope, and the store of their values.

  A store has one global map and one local map per registered entity, both keyed by definition id.
  A key is looked up as an id first and then as a name.  Every write is coerced to the declared
  type; a variable that was never written reads as its coerced default, a key without a definition
  reads as 0.
-/
import BlockStage.Value
import BlockStage.Table

namespace BlockStage

/-- Declared types. -/
inductive VariableType where
  | integer | float | string | boolean
deriving Repr, DecidableEq

/-- Shared by all entities, or one value for each. -/
inductive VariableScope where
  | global | «local»
deriving Repr, DecidableEq

namespace VariableType

/-- The words for the types. -/
def words : List (String × VariableType) :=
  [("integer", .integer), ("float", .float), ("string", .string), ("boolean", .boolean)]

/-- The word for a type. -/
def word : VariableType → String
  | .integer => "integer"
  | .float => "float"
  | .string => "string"
  | .boolean => "boolean"

end VariableType

namespace VariableScope

/-- The words for the scopes. -/
def words : List (String × VariableScope) := [("global", .global), ("local", .local)]

/-- The word for a scope. -/
def word : VariableScope → String
  | .global => "global"
  | .local => "local"

end VariableScope

/-- A variable of a program. -/
structure VariableDefinition where
  id : String
  name : String
  type : VariableType
  scope : VariableScope
  default : Value

namespace VariableDefinition

/-- A value made to fit a declared type; integers lose their fraction. -/
def coerceTo (type : VariableType) (v : Value) : Value :=
  match type with
  | .integer => .number (truncOf v.toNumber)
  | .float => .number v.toNumber
  | .string => .text v.toText
  | .boolean => .bool v.toBool

/-- A value made to fit the declared type. -/
def coerce (d : VariableDefinition) (v : Value) : Value := coerceTo d.type v

/-- What the variable reads as before any write. -/
def defaultValue (d : VariableDefinition) : Value :=
  match d.default, d.type with
  | .null, .string => .text ""
  | .null, .boolean => .bool false
  | .null, _ => .number 0
  | v, _ => d.coerce v

/-- The fields of a definition. -/
def fieldNames : List String := ["id", "name", "type", "scope", "default"]

/-- Reads a definition. -/
def decode : Decoder VariableDefinition := fun room j => do
  let fs ← Fields.open? fieldNames room j
  some
    { id := ← fs.required "id" Decoder.text
      name := ← fs.required "name" Decoder.text
      type := ← fs.withDefault "type" (Decoder.word VariableType.words) .float
      scope := ← fs.withDefault "scope" (Decoder.word VariableScope.words) .global
      default := ← fs.withDefault "default" Value.decode .null }

/-- The definition as data. -/
def toJson (d : VariableDefinition) : Json :=
  .record
    [("id", .str d.id), ("name", .str d.name), ("type", .str d.type.word),
      ("scope", .str d.scope.word), ("default", d.default.toJson)]

end VariableDefinition

/-! ## The store -/

/-- Definitions, the index of their names, and the values. -/
structure VariableStore where
  definitions : Table String VariableDefinition
  names : Table String String
  globals : Table String Value
  locals : Table String (Table String Value)

namespace VariableStore

/-- A store without definitions. -/
def empty : VariableStore := ⟨.empty, .empty, .empty, .empty⟩

instance : Inhabited VariableStore := ⟨empty⟩

/-- Adds a definition, in place of one with the same id. -/
def define (s : VariableStore) (d : VariableDefinition) : VariableStore :=
  { s with
    names := s.names.insert d.name d.id
    definitions := s.definitions.insert d.id d }

/-- Adds definitions in order. -/
def defineAll (s : VariableStore) (ds : List VariableDefinition) : VariableStore :=
  ds.foldl define s

/-- The id that a key stands for. -/
def resolve? (s : VariableStore) (key : String) : Option String :=
  if s.definitions.contains key then some key else s.names.get? key

/-- The definition that a key stands for. -/
def definition? (s : VariableStore) (key : String) : Option VariableDefinition :=
  match s.resolve? key with
  | some id => s.definitions.get? id
  | none => none

/-- Gives an entity an empty local map unless it has one. -/
def addLocals (s : VariableStore) (entity : String) : VariableStore :=
  if s.locals.contains entity then s else { s with locals := s.locals.insert entity .empty }

/-- Forgets an entity's local map; answers whether it had one. -/
def dropLocals (s : VariableStore) (entity : String) : Bool × VariableStore :=
  (s.locals.contains entity, { s with locals := s.locals.erase entity })

/-- Gives `target` a copy of the local map of `source`. -/
def copyLocals (s : VariableStore) (source target : String) : VariableStore :=
  { s with locals := s.locals.insert target ((s.locals.get? source).getD .empty) }

/-- The stored value of a definition as an entity sees it. -/
def stored? (s : VariableStore) (entity : String) (d : VariableDefinition) : Option Value :=
  match d.scope with
  | .global => s.globals.get? d.id
  | .local =>
    match s.locals.get? entity with
    | some values => values.get? d.id
    | none => none

/-- The value of a key, if it stands for a definition. -/
def find? (s : VariableStore) (entity key : String) : Option Value :=
  match s.definition? key with
  | some d => some ((s.stored? entity d).getD d.defaultValue)
  | none => none

/-- The value of a key; 0 if it stands for nothing. -/
def get (s : VariableStore) (entity key : String) : Value :=
  (s.find? entity key).getD (.number 0)

/-- Writes a value, coerced to the declared type.  Fails when the key stands for nothing or a local
    write names an entity without a local map. -/
def set (s : VariableStore) (entity key : String) (v : Value) : Bool × VariableStore :=
  match s.definition? key with
  | none => (false, s)
  | some d =>
    let value := d.coerce v
    match d.scope with
    | .global => (true, { s with globals := s.globals.insert d.id value })
    | .local =>
      match s.locals.get? entity with
      | some values =>
        (true, { s with locals := s.locals.insert entity (values.insert d.id value) })
      | none => (false, s)

/-- Adds to a value. -/
def changeBy (s : VariableStore) (entity key : String) (delta : Float) : Bool × VariableStore :=
  match s.find? entity key with
  | none => (false, s)
  | some current => s.set entity key (.number (current.toNumber + delta))

/-- Forgets all local maps. -/
def dropAllLocals (s : VariableStore) : VariableStore := { s with locals := .empty }

/-- Forgets all values, keeping the definitions and the registered entities. -/
def forgetValues (s : VariableStore) : VariableStore :=
  { s with
    globals := .empty
    locals := ⟨s.locals.entries.map fun e => (e.1, .empty)⟩ }

end VariableStore

end BlockStage
