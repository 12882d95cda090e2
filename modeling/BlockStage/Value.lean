/-
  Loosely typed values.

  A value is nothing, a truth value, a number or a text, and each can be read as any other: text
  that is not a number reads as 0, empty text, `0` and `false` read as false, whole numbers print
  without a fraction.

  Comparison is numeric when both sides are numbers or read as such; two truth values compare as
  such; everything else compares as lower-case text.  Numbers that cannot be ordered count as equal.
-/
import BlockStage.Decimal.Reader
import BlockStage.Json.Printer
import BlockStage.Json.Decode
import BlockStage.Text.Blank
import BlockStage.Text.Lowercase

namespace BlockStage

/-- A loosely typed value. -/
inductive Value where
  | null
  | bool (flag : Bool)
  | number (n : Float)
  | text (s : String)

instance : Inhabited Value := ⟨.null⟩

/-- Neither infinite nor not-a-number. -/
def isFinite (x : Float) : Bool :=
  match exactOf x with
  | .finite _ _ _ => true
  | _ => false

/-- Blank-trimmed text as a finite number. -/
def readNumber? (s : String) : Option Float :=
  match parseDouble? (trimText s) with
  | some x => if isFinite x then some x else none
  | none => none

namespace Value

/-- The value as a finite number. -/
def toNumber : Value → Float
  | .null => 0
  | .bool flag => if flag then 1 else 0
  | .number n => if isFinite n then n else 0
  | .text s => (readNumber? s).getD 0

/-- The value as a truth value. -/
def toBool : Value → Bool
  | .null => false
  | .bool flag => flag
  | .number n => !(n == 0) && n == n
  | .text s =>
    let t := trimText s
    !(t == "" || t == "0" || eqIgnoringAsciiCase t "false")

/-- The value as text. -/
def toText : Value → String
  | .null => ""
  | .bool flag => if flag then "true" else "false"
  | .number n => numberText n
  | .text s => s

/-- The number that a comparison sees, if any. -/
def numeric? : Value → Option Float
  | .number n => some n
  | .text s => readNumber? s
  | _ => none

/-- The order of two numbers; numbers without an order are equal. -/
def compareNumbers (a b : Float) : Ordering :=
  if a < b then .lt else if b < a then .gt else .eq

/-- The order of two texts, by code point. -/
def compareTexts (a b : String) : Ordering :=
  if a < b then .lt else if b < a then .gt else .eq

/-- The order of two values. -/
def compare (a b : Value) : Ordering :=
  match a.numeric?, b.numeric? with
  | some x, some y => compareNumbers x y
  | _, _ =>
    match a, b with
    | .bool x, .bool y => Ord.compare x y
    | a, b => compareTexts (lowercase a.toText) (lowercase b.toText)

/-- Equality as a script sees it. -/
def alike (a b : Value) : Bool := a.compare b == .eq

/-! ## As data -/

/-- Reads a value; arrays and objects are none. -/
def decode : Decoder Value
  | _, .null => some .null
  | _, .bool b => some (.bool b)
  | room, .number n => (Decoder.double room (.number n)).map .number
  | _, .text s => s.map .text
  | _, _ => none

/-- The value as data; a number that is not finite is `null`. -/
def toJson : Value → Json
  | .null => .null
  | .bool b => .bool b
  | .number n => .finite n
  | .text s => .str s

end Value

example : (Value.text "9").compare (.text "10") = .lt := by decide +kernel
example : (Value.text "Apple").alike (.text "apple") = true := by decide +kernel
example : (Value.number (-0.0)).toText = "0" := by decide +kernel

end BlockStage
