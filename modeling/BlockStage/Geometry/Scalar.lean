/-
  The numbers that geometry computes with.

  Placements, sensing and motion are written once over a type of scalars.  A session runs them over
  four-byte floats, where each operation rounds; a law of exact arithmetic is about the same
  definitions over another type.

  Comparisons answer truth values, since on floats they are not an order.  `degrees` and `radians`
  are the two conversion factors, `turn` is twice `pi`, and `tiny` is the least scale that is not
  treated as zero.
-/
import BlockStage.Number.Rounding

namespace BlockStage

/-- Numbers with the operations of plane geometry. -/
class Scalar (α : Type) extends Add α, Sub α, Mul α, Div α, Neg α where
  /-- A quotient of whole numbers, as near as it can be represented. -/
  ratio : Int → Nat → α
  less : α → α → Bool
  lessEq : α → α → Bool
  equal : α → α → Bool
  minOf : α → α → α
  maxOf : α → α → α
  magnitude : α → α
  root : α → α
  sine : α → α
  cosine : α → α
  /-- The angle of the direction `(x, y)`, called with `y` first. -/
  angle : α → α → α
  /-- The remainder in `[0, m)` for a positive modulus `m`. -/
  wrap : α → α → α
  pi : α
  turn : α
  degrees : α
  radians : α
  tiny : α
  finite : α → Bool

namespace Scalar

variable {α : Type} [Scalar α]

/-- A whole number as a scalar. -/
def ofInt (i : Int) : α := ratio i 1

/-- Nought. -/
def zero : α := ofInt 0

/-- One. -/
def one : α := ofInt 1

/-- One half. -/
def half : α := ratio 1 2

end Scalar

/-! ## Four-byte floats -/

namespace Single

/-- The smaller number; a not-a-number gives way to the other. -/
def min (a b : Float32) : Float32 := if a < b then a else if b == b then b else a

/-- The larger number; a not-a-number gives way to the other. -/
def max (a b : Float32) : Float32 := if b < a then a else if b == b then b else a

/-- The four-byte number nearest to a quotient. -/
def ratio (num : Int) (den : Nat) : Float32 :=
  Float32.ofBits (UInt32.ofNat (Format.single.encodeRatio (decide (num < 0)) num.natAbs den))

/-- Neither infinite nor not-a-number. -/
def finite (x : Float32) : Bool :=
  match exactOfSingle x with
  | .finite _ _ _ => true
  | _ => false

end Single

instance : Scalar Float32 where
  ratio := Single.ratio
  less a b := a < b
  lessEq a b := a ≤ b
  equal a b := a == b
  minOf := Single.min
  maxOf := Single.max
  magnitude := Float32.abs
  root := Float32.sqrt
  sine := Float32.sin
  cosine := Float32.cos
  angle := Float32.atan2
  wrap := remEuclid
  pi := Float32.ofBits 0x40490FDB
  turn := Float32.ofBits 0x40C90FDB
  degrees := Float32.ofBits 0x42652EE1
  radians := Float32.ofBits 0x3C8EFA35
  tiny := Float32.ofBits 0x34000000
  finite := Single.finite

end BlockStage
