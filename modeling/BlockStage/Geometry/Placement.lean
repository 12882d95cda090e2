/-
  Placements: where a thing is, how it is turned and how it is scaled.

  A placement under a parent is read in the parent's frame: scaled, turned, then moved.
  `Placement.compose` gives the placement in the parent's own surroundings, and `seenFrom` undoes
  it.  A scale too close to zero to divide by is replaced by the least scale.
-/
import BlockStage.Geometry.Vec

namespace BlockStage

/-- An offset, a rotation in radians, and a scale along both axes. -/
structure Placement (α : Type) where
  offset : Vec α
  rotation : α
  scale : Vec α
deriving Repr

namespace Placement

variable {α : Type} [Scalar α]

/-- A placement inside a parent, seen from outside the parent. -/
def compose (parent child : Placement α) : Placement α :=
  { offset :=
      parent.offset
        + (Vec.ofAngle parent.rotation).rotate (child.offset.times parent.scale)
    rotation := parent.rotation + child.rotation
    scale := parent.scale.times child.scale }

/-- A number that is safe to divide by. -/
def divisor (a : α) : α :=
  if Scalar.less (Scalar.magnitude a) Scalar.tiny then Scalar.tiny else a

/-- A scale that is safe to divide by. -/
def divisors (s : Vec α) : Vec α := ⟨divisor s.x, divisor s.y⟩

/-- A placement seen from outside a parent, read in the parent's frame. -/
def seenFrom (parent world : Placement α) : Placement α :=
  let unturned :=
    (Vec.ofAngle (-parent.rotation)).rotate (world.offset - parent.offset)
  { offset := unturned.quotient (divisors parent.scale)
    rotation := world.rotation - parent.rotation
    scale := world.scale.quotient (divisors parent.scale) }

/-- Are all numbers of the placement finite? -/
def isFinite (p : Placement α) : Bool :=
  p.offset.isFinite && Scalar.finite p.rotation && p.scale.isFinite

end Placement

end BlockStage
