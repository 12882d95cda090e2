/-
  The canvas and its two coordinate systems.

  Scripts use user space: the origin in the middle, the y axis up, degrees counter-clockwise.  The
  stage uses pixel space: the origin in the top-left corner, the y axis down, radians clockwise.
  Points shift and flip, offsets and velocities only flip, angles change sign and unit.
-/
import BlockStage.Geometry.Vec

namespace BlockStage

/-- A canvas of a fixed size in pixels. -/
structure Canvas (α : Type) where
  width : α
  height : α
deriving Repr

/-- An angle brought into `[-pi, pi)`. -/
def wrapAngle {α : Type} [Scalar α] (a : α) : α :=
  Scalar.wrap (a + Scalar.pi) Scalar.turn - Scalar.pi

namespace Canvas

variable {α : Type} [Scalar α]

/-- Half the width and half the height. -/
def middle (c : Canvas α) : Vec α := ⟨c.width * Scalar.half, c.height * Scalar.half⟩

/-- A point of user space in pixels. -/
def toPixels (c : Canvas α) (p : Vec α) : Vec α :=
  ⟨p.x + c.width * Scalar.half, c.height * Scalar.half - p.y⟩

/-- A point in pixels in user space. -/
def toUser (c : Canvas α) (p : Vec α) : Vec α :=
  ⟨p.x - c.width * Scalar.half, c.height * Scalar.half - p.y⟩

/-- An offset of either space in the other. -/
def flip (v : Vec α) : Vec α := ⟨v.x, -v.y⟩

/-- Degrees counter-clockwise as radians clockwise. -/
def rotationToPixels (degrees : α) : α := -(degrees * Scalar.radians)

/-- Radians clockwise as degrees counter-clockwise in `(-180, 180]`. -/
def rotationToUser (radians : α) : α :=
  let d := -(wrapAngle radians * Scalar.degrees)
  if Scalar.lessEq d (Scalar.ofInt (-180)) then d + Scalar.ofInt 360 else d

/-- Is the pixel on the canvas, borders included? -/
def contains (c : Canvas α) (p : Vec α) : Bool :=
  Scalar.lessEq Scalar.zero p.x && Scalar.lessEq Scalar.zero p.y && Scalar.lessEq p.x c.width
    && Scalar.lessEq p.y c.height

end Canvas

end BlockStage
