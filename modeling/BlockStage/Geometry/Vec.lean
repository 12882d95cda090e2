/-
  Points and offsets of the plane.
-/
import BlockStage.Geometry.Scalar

namespace BlockStage

/-- A point or an offset. -/
structure Vec (α : Type) where
  x : α
  y : α
deriving Repr, DecidableEq

namespace Vec

variable {α : Type} [Scalar α]

instance : Add (Vec α) := ⟨fun a b => ⟨a.x + b.x, a.y + b.y⟩⟩
instance : Sub (Vec α) := ⟨fun a b => ⟨a.x - b.x, a.y - b.y⟩⟩

/-- The origin. -/
def zero : Vec α := ⟨Scalar.zero, Scalar.zero⟩

/-- The same coordinate twice. -/
def both (a : α) : Vec α := ⟨a, a⟩

/-- Both coordinates times a number. -/
def scale (v : Vec α) (k : α) : Vec α := ⟨v.x * k, v.y * k⟩

/-- The product by coordinates. -/
def times (a b : Vec α) : Vec α := ⟨a.x * b.x, a.y * b.y⟩

/-- The quotient by coordinates. -/
def quotient (a b : Vec α) : Vec α := ⟨a.x / b.x, a.y / b.y⟩

/-- Both coordinates without sign. -/
def abs (v : Vec α) : Vec α := ⟨Scalar.magnitude v.x, Scalar.magnitude v.y⟩

/-- The unit vector in the direction of an angle. -/
def ofAngle (a : α) : Vec α := ⟨Scalar.cosine a, Scalar.sine a⟩

/-- `v` turned by the direction of the unit vector `u`. -/
def rotate (u v : Vec α) : Vec α := ⟨u.x * v.x - u.y * v.y, u.y * v.x + u.x * v.y⟩

/-- The square of the length. -/
def lengthSquared (v : Vec α) : α := v.x * v.x + v.y * v.y

/-- The distance between two points. -/
def distance (a b : Vec α) : α :=
  let d := a - b
  Scalar.root (d.x * d.x + d.y * d.y)

/-- The point a fraction `s` of the way from `a` to `b`. -/
def lerp (a b : Vec α) (s : α) : Vec α := a + (b - a).scale s

/-- Are both coordinates finite? -/
def isFinite (v : Vec α) : Bool := Scalar.finite v.x && Scalar.finite v.y

end Vec

end BlockStage
