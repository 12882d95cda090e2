/-
  Writing JSON trees as text.

  Numbers are positional: a whole number below `10 ^ 15` has neither point nor exponent and minus
  zero is 0; any other has the fewest digits that read back.  A number or text without a value
  cannot be written and becomes `null`.
-/
import BlockStage.Json.Basic
import BlockStage.Decimal.Shortest

namespace BlockStage

/-- The text of a finite number: whole numbers of moderate size as integers, others shortest. -/
def numberText (x : Float) : String :=
  match exactOf x with
  | .finite negative m e =>
    if isWhole x && x.abs < 1e15 then
      let magnitude := m * Nat.pow 2 e.toNat / Nat.pow 2 (-e).toNat
      if negative && magnitude != 0 then "-" ++ toString magnitude else toString magnitude
    else doubleText x
  | _ => doubleText x

namespace JsonPrinter

/-- Four hexadecimal digits. -/
def hex4 (n : Nat) : List Char :=
  let d := Nat.toDigits 16 n
  List.replicate (4 - d.length) '0' ++ d

/-- A character inside quotes. -/
def escape (c : Char) : List Char :=
  match c with
  | '"' => ['\\', '"']
  | '\\' => ['\\', '\\']
  | '\n' => ['\\', 'n']
  | '\r' => ['\\', 'r']
  | '\t' => ['\\', 't']
  | c => if c.toNat < 0x20 then '\\' :: 'u' :: hex4 c.toNat else [c]

/-- A quoted text. -/
def quoted (s : String) : String :=
  "\"" ++ String.ofList (s.toList.flatMap escape) ++ "\""

/-- A number. -/
def number : JsonNumber → String
  | .integer i => toString i
  | .real x => numberText x
  | .tooLarge => "null"

mutual

/-- A tree as compact text. -/
def render : Json → String
  | .null => "null"
  | .bool b => if b then "true" else "false"
  | .number n => number n
  | .text (some s) => quoted s
  | .text none => "null"
  | .array items => "[" ++ String.intercalate "," (renderItems items) ++ "]"
  | .object members => "\x7b" ++ String.intercalate "," (renderMembers members) ++ "\x7d"

/-- The texts of the elements. -/
def renderItems : List Json → List String
  | [] => []
  | j :: r => render j :: renderItems r

/-- The texts of the members that have a name. -/
def renderMembers : List (Option String × Json) → List String
  | [] => []
  | (some name, j) :: r => (quoted name ++ ":" ++ render j) :: renderMembers r
  | (none, _) :: r => renderMembers r

end

end JsonPrinter

/-- The compact text of a tree. -/
def Json.render (j : Json) : String := JsonPrinter.render j

end BlockStage
