/-
  Bodies: the boxes that take part in physics.

  A body keeps the size it was made with and its own position, heading and velocity.  Its outline is
  the box that sensing sees; it follows changes of position at the next step only.
-/
import BlockStage.Geometry.Box
import BlockStage.Scene
import BlockStage.Stage.Solids

namespace BlockStage

/-- A box body, and the keys under which physics knows it and its collider.  A pinned body follows its
    entity and does not move by itself; `grounds` counts its contacts with the ground as they have
    been reported. -/
structure Body (α : Type) where
  key : BodyKey
  collider : ColliderKey
  center : Vec α
  heading : Vec α
  half : Vec α
  velocity : Vec α
  settings : BodySettings α
  pinned : Bool
  outline : Box α
  grounds : Nat
deriving Repr

namespace Body

variable {α : Type} [Scalar α]

/-- The box with sides along the axes around the turned body. -/
def reach (b : Body α) : Box α :=
  let h := b.heading.abs
  Box.around b.center
    ⟨h.x * b.half.x + h.y * b.half.y, h.y * b.half.x + h.x * b.half.y⟩

/-- A body at rest, at least `least` wide and high. -/
def new (keys : BodyKey × ColliderKey) (center : Vec α) (rotation : α) (half : Vec α) (least : α)
    (settings : BodySettings α) (pinned : Bool) : Body α :=
  let floor := least * Scalar.half
  let b : Body α :=
    { key := keys.1
      collider := keys.2
      center := center
      heading := Vec.ofAngle rotation
      half := ⟨Scalar.maxOf half.x floor, Scalar.maxOf half.y floor⟩
      velocity := Vec.zero
      settings := settings
      pinned := pinned
      outline := ⟨Vec.zero, Vec.zero⟩
      grounds := 0 }
  { b with outline := b.reach }

/-- The body moved to a place, its outline left behind. -/
def moveTo (b : Body α) (center : Vec α) (rotation : α) : Body α :=
  { b with center := center, heading := Vec.ofAngle rotation }

/-- The angle of the heading. -/
def rotation (b : Body α) : α := Scalar.angle b.heading.y b.heading.x

end Body

end BlockStage
