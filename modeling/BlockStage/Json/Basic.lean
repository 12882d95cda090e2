/-
  JSON trees.

  A tree keeps what the text said and nothing is lost before a reader asks for it: members in
  their order with repetitions, whole numbers apart from others, and the two things that are well
  formed as text but have no value, a number out of range and a string whose escapes name no
  character.  They matter only to a reader that looks at them, so an ignored member may hold them.
-/
import BlockStage.Number.Rounding

namespace BlockStage

/-- A number as written: whole and within 64 bits, any other, or too large to represent. -/
inductive JsonNumber where
  | integer (value : Int)
  | real (value : Float)
  | tooLarge

/-- A JSON tree.  A `none` text is one that names no character. -/
inductive Json where
  | null
  | bool (value : Bool)
  | number (value : JsonNumber)
  | text (value : Option String)
  | array (items : List Json)
  | object (members : List (Option String × Json))

instance : Inhabited Json := ⟨.null⟩

namespace Json

/-- A text. -/
def str (s : String) : Json := .text (some s)

/-- A whole number. -/
def int (i : Int) : Json := .number (.integer i)

/-- A natural number. -/
def nat (n : Nat) : Json := int n

/-- A number, or `null` when it is not finite. -/
def finite (x : Float) : Json :=
  match exactOf x with
  | .finite _ _ _ => .number (.real x)
  | _ => .null

/-- A four-byte number, or `null` when it is not finite. -/
def finiteSingle (x : Float32) : Json := finite (widen x)

/-- An object from named members. -/
def record (members : List (String × Json)) : Json :=
  .object (members.map fun m => (some m.1, m.2))

/-- A value or `null`. -/
def nullable {α : Type} (f : α → Json) : Option α → Json
  | some a => f a
  | none => .null

/-- A member that is left out when there is nothing to say. -/
def optional {α : Type} (name : String) (f : α → Json) : Option α → List (String × Json)
  | some a => [(name, f a)]
  | none => []

/-- A list of texts. -/
def texts (l : List String) : Json := .array (l.map str)

end Json

end BlockStage
