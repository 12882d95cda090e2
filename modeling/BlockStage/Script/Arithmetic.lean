/-
  The operators of value blocks.

  Arithmetic never leaves the finite numbers: a result that is not finite becomes 0.  The remainder
  takes the sign of the divisor, angles are in degrees, and halves round away from zero.
-/
import BlockStage.Value

namespace BlockStage

/-- A word as the operator menus read it. -/
def menuWord (raw : String) : String := asciiLower (trimText raw)

/-- A number, or 0 in place of one that is not finite. -/
def finiteOrZero (x : Float) : Float := if isFinite x then x else 0

/-- Operators on two numbers. -/
inductive MathOperator where
  | add | sub | mul | div | mod | pow | min | max
deriving Repr, DecidableEq

namespace MathOperator

/-- The spellings of the operators. -/
def spellings : List (String × MathOperator) :=
  [ ("add", .add), ("+", .add), ("sub", .sub), ("-", .sub), ("mul", .mul), ("*", .mul),
    ("div", .div), ("/", .div), ("mod", .mod), ("%", .mod), ("pow", .pow), ("^", .pow),
    ("min", .min), ("max", .max) ]

/-- Reads an operator. -/
def parse? (raw : String) : Option MathOperator := spellings.lookup (menuWord raw)

/-- The result before it is made finite. -/
def raw (o : MathOperator) (a b : Float) : Float :=
  match o with
  | .add => a + b
  | .sub => a - b
  | .mul => a * b
  | .div => a / b
  | .mod => a - b * floorOf (a / b)
  | .pow => a.pow b
  | .min => if a < b then a else b
  | .max => if b < a then a else b

/-- The result on two finite numbers. -/
def apply (o : MathOperator) (a b : Float) : Float := finiteOrZero (o.raw a b)

end MathOperator

/-- Functions of one number. -/
inductive MathFunction where
  | abs | floor | ceiling | round | sqrt | sin | cos | tan | ln | log10 | neg
deriving Repr, DecidableEq

namespace MathFunction

/-- The spellings of the functions. -/
def spellings : List (String × MathFunction) :=
  [ ("abs", .abs), ("floor", .floor), ("ceil", .ceiling), ("ceiling", .ceiling),
    ("round", .round), ("sqrt", .sqrt), ("sin", .sin), ("cos", .cos), ("tan", .tan), ("ln", .ln),
    ("log10", .log10), ("log", .log10), ("neg", .neg) ]

/-- Reads a function. -/
def parse? (raw : String) : Option MathFunction := spellings.lookup (menuWord raw)

/-- Degrees as radians. -/
def radians (x : Float) : Float := x * Float.ofBits 0x3F91DF46A2529D39

/-- The result before it is made finite. -/
def raw (f : MathFunction) (x : Float) : Float :=
  match f with
  | .abs => x.abs
  | .floor => floorOf x
  | .ceiling => ceilingOf x
  | .round => roundOf x
  | .sqrt => x.sqrt
  | .sin => (radians x).sin
  | .cos => (radians x).cos
  | .tan => (radians x).tan
  | .ln => x.log
  | .log10 => x.log10
  | .neg => -x

/-- The result on a finite number. -/
def apply (f : MathFunction) (x : Float) : Float := finiteOrZero (f.raw x)

end MathFunction

/-- Tests on the order of two values. -/
inductive Comparison where
  | eq | ne | lt | le | gt | ge
deriving Repr, DecidableEq

namespace Comparison

/-- The spellings of the tests. -/
def spellings : List (String × Comparison) :=
  [ ("eq", .eq), ("=", .eq), ("==", .eq), ("neq", .ne), ("!=", .ne), ("lt", .lt), ("<", .lt),
    ("lte", .le), ("<=", .le), ("gt", .gt), (">", .gt), ("gte", .ge), (">=", .ge) ]

/-- Reads a test. -/
def parse? (raw : String) : Option Comparison := spellings.lookup (menuWord raw)

/-- Does an order pass the test? -/
def passes (c : Comparison) (o : Ordering) : Bool :=
  match c with
  | .eq => o.isEq
  | .ne => o.isNe
  | .lt => o.isLT
  | .le => o.isLE
  | .gt => o.isGT
  | .ge => o.isGE

end Comparison

/-- Is a literal bound of a random range written as a whole number?  Text counts by its spelling: a
    number without a point. -/
def looksWhole : Value → Bool
  | .number n => isWhole n
  | .text s => !s.toList.contains '.' && (parseDouble? (trimText s)).isSome
  | _ => true

example : (MathOperator.mod.apply (-1) 5 == 4) = true := by decide +kernel
example : (MathOperator.div.apply 1 0 == 0) = true := by decide +kernel

end BlockStage
