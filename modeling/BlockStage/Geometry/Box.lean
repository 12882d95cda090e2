/-
  Boxes with sides along the axes.  Borders belong to a box: boxes that share an edge overlap.
-/
import BlockStage.Geometry.Vec

namespace BlockStage

/-- The points between two corners. -/
structure Box (α : Type) where
  min : Vec α
  max : Vec α
deriving Repr

namespace Box

variable {α : Type} [Scalar α]

/-- The box with the given center and half its sides. -/
def around (center half : Vec α) : Box α := ⟨center - half, center + half⟩

/-- Have two boxes a point in common? -/
def overlaps (a b : Box α) : Bool :=
  Scalar.lessEq a.min.x b.max.x && Scalar.lessEq b.min.x a.max.x
    && Scalar.lessEq a.min.y b.max.y && Scalar.lessEq b.min.y a.max.y

/-- Is the point in the box? -/
def contains (b : Box α) (p : Vec α) : Bool :=
  Scalar.lessEq b.min.x p.x && Scalar.lessEq p.x b.max.x && Scalar.lessEq b.min.y p.y
    && Scalar.lessEq p.y b.max.y

/-- The middle of the box. -/
def center (b : Box α) : Vec α := (b.min + b.max).scale Scalar.half

end Box

end BlockStage
