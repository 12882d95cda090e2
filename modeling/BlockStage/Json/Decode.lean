/-
  Turning JSON trees into values of known shape.

  A decoder is given the room left for nesting and the tree.  Containers take one level each and
  fail when no room is left, so the room also bounds the recursion of decoders for recursive types.

  Records are read from an object or from an array: an object names its fields, an array lists
  them in declaration order.  A field given twice fails, unknown fields are ignored, and a missing
  field has its default or fails.  Numbers keep their kind: a field for whole numbers refuses
  `1.0`, while a field for reals takes any number.
-/
import BlockStage.Json.Basic
import BlockStage.Json.Reader

namespace BlockStage

/-- How deep a tree may nest. -/
def nestingLimit : Nat := 127

/-- Reads a value from a tree, with the room left for nesting. -/
abbrev Decoder (α : Type) := Nat → Json → Option α

namespace Decoder

/-- A text. -/
def text : Decoder String
  | _, .text s => s
  | _, _ => none

/-- A truth value. -/
def bool : Decoder Bool
  | _, .bool b => some b
  | _, _ => none

/-- An eight-byte number, from any number. -/
def double : Decoder Float
  | _, .number (.integer i) => some (doubleOfInt i)
  | _, .number (.real x) => some x
  | _, _ => none

/-- A four-byte number, from any number, rounded once. -/
def single : Decoder Float32
  | _, .number (.integer i) => some (singleOfInt i)
  | _, .number (.real x) => some (narrow x)
  | _, _ => none

/-- A whole number in `[lo, hi]`. -/
def integer (lo hi : Int) : Decoder Int
  | _, .number (.integer i) => if lo ≤ i && i ≤ hi then some i else none
  | _, _ => none

/-- A natural number below `2 ^ 64`. -/
def nat64 : Decoder Nat := fun room j => (integer 0 (Nat.pow 2 64 - 1) room j).map Int.toNat

/-- A signed 32-bit number. -/
def int32 : Decoder Int := integer (-Nat.pow 2 31) (Nat.pow 2 31 - 1)

/-- A value or `null`. -/
def nullable {α : Type} (d : Decoder α) : Decoder (Option α)
  | _, .null => some none
  | room, j => (d room j).map some

/-- A list of values. -/
def list {α : Type} (d : Decoder α) : Decoder (List α)
  | room + 1, .array items => items.mapM (d room)
  | _, _ => none

/-- Exactly two values. -/
def pair {α : Type} (d : Decoder α) : Decoder (α × α)
  | room + 1, .array [a, b] => do some (← d room a, ← d room b)
  | _, _ => none

/-- One of a few words.  The word may also stand as the only member of an object, with `null`. -/
def word {α : Type} (words : List (String × α)) : Decoder α
  | _, .text (some s) => words.lookup s
  | _ + 1, .object [(some s, .null)] => words.lookup s
  | _, _ => none

/-- The members of an object as name and tree, all names being texts. -/
def named (members : List (Option String × Json)) : Option (List (String × Json)) :=
  members.mapM fun m => m.1.map fun name => (name, m.2)

/-- Is everything in the tree a value, and the nesting within the room? -/
def readable : Nat → Json → Bool
  | _, .number .tooLarge => false
  | _, .text none => false
  | room, .array items =>
    match room with
    | 0 => false
    | room + 1 => items.all (readable room)
  | room, .object members =>
    match room with
    | 0 => false
    | room + 1 => members.all fun m => m.1.isSome && readable room m.2
  | _, _ => true

end Decoder

/-! ## Records -/

/-- The fields of a record that are present, and the room left inside them. -/
structure Fields where
  room : Nat
  present : List (String × Json)

namespace Fields

/-- The present fields among `names`. -/
def open? (names : List String) : Decoder Fields
  | room + 1, .object members => do
    let all ← Decoder.named members
    let known := all.filter fun m => names.contains m.1
    if names.all fun n => (known.filter fun m => m.1 == n).length ≤ 1 then some ⟨room, known⟩
    else none
  | room + 1, .array items =>
    if items.length ≤ names.length then some ⟨room, names.zip items⟩ else none
  | _, _ => none

/-- A field that must be present. -/
def required {α : Type} (fs : Fields) (name : String) (d : Decoder α) : Option α :=
  match fs.present.lookup name with
  | some j => d fs.room j
  | none => none

/-- A field with a default. -/
def withDefault {α : Type} (fs : Fields) (name : String) (d : Decoder α) (default : α) :
    Option α :=
  match fs.present.lookup name with
  | some j => d fs.room j
  | none => some default

/-- A field that may be absent or `null`. -/
def optional {α : Type} (fs : Fields) (name : String) (d : Decoder α) : Option (Option α) :=
  fs.withDefault name (Decoder.nullable d) none

end Fields

/-- Decodes a whole text. -/
def decodeText? {α : Type} (d : Decoder α) (text : String) : Option α := do
  d nestingLimit (← Json.parse? text)

end BlockStage
