/-
  Solids: what physics knows of, and who is behind it.

  Physics knows rigid bodies, each with its colliders, the shapes that come into contact.  Both are
  found by keys, which are given out once and never again, so a key kept after its body has gone
  finds nothing.  The register notes for each collider of an actor's body whose it is.  The ground
  and the walls are colliders too; they stand on bodies that never move and are put up anew when the
  canvas gets another size.
-/
import BlockStage.Table

namespace BlockStage

/-- The identity of an actor on its stage. -/
abbrev Handle := Nat

/-- The identity of a rigid body. -/
abbrev BodyKey := Nat

/-- The identity of a collider. -/
abbrev ColliderKey := Nat

/-- Who is behind a collider. -/
inductive Solid where
  | actor (handle : Handle)
  | ground
  | wall
deriving Repr, DecidableEq

/-- The rigid bodies with their colliders, the owners of those that belong to actors, the bodies
    that never move, and the colliders of the ground and of the walls, the left one first. -/
structure Solids where
  bodies : Table BodyKey (List ColliderKey)
  owners : Table ColliderKey Handle
  fixed : List BodyKey
  ground : Option ColliderKey
  walls : List ColliderKey
  nextBody : BodyKey
  nextCollider : ColliderKey
deriving Repr

namespace Solids

/-- No bodies. -/
def empty : Solids := ⟨.empty, .empty, [], none, [], 0, 0⟩

/-- The register with one more body, under the next key and with one collider. -/
def grown (s : Solids) : Solids :=
  { s with
    bodies := s.bodies.insert s.nextBody [s.nextCollider]
    nextBody := s.nextBody + 1
    nextCollider := s.nextCollider + 1 }

/-- Adds a body that never moves; answers the key of its collider. -/
def addFixed (s : Solids) : ColliderKey × Solids :=
  (s.nextCollider, { s.grown with fixed := s.fixed ++ [s.nextBody] })

/-- Adds the body of an actor; answers its key and the key of its collider. -/
def addOwned (s : Solids) (owner : Handle) : (BodyKey × ColliderKey) × Solids :=
  ((s.nextBody, s.nextCollider),
    { s.grown with owners := s.owners.insert s.nextCollider owner })

/-- Takes a body away, and its colliders with it. -/
def remove (s : Solids) (body : BodyKey) : Solids :=
  { s with
    owners := ((s.bodies.get? body).getD []).foldl Table.erase s.owners
    bodies := s.bodies.erase body }

/-- Puts up the ground, if there is to be one. -/
def putGround (s : Solids) (wanted : Bool) : Solids :=
  if wanted then
    let (c, s) := s.addFixed
    { s with ground := some c }
  else s

/-- Puts up the walls, if there are to be any. -/
def putWalls (s : Solids) (wanted : Bool) : Solids :=
  if wanted then
    let (left, s) := s.addFixed
    let (right, s) := s.addFixed
    { s with walls := s.walls ++ [left, right] }
  else s

/-- The solids around an empty stage. -/
def new (ground walls : Bool) : Solids := (empty.putGround ground).putWalls walls

/-- Takes down what never moves and puts it up anew. -/
def rebuild (s : Solids) (ground walls : Bool) : Solids :=
  let s := s.fixed.foldl remove { s with fixed := [] }
  ({ s with ground := none, walls := [] }.putGround ground).putWalls walls

/-- Takes all bodies away but those that never move. -/
def clearOwned (s : Solids) : Solids :=
  (s.bodies.keys.filter fun b => !s.fixed.contains b).foldl remove s

/-- Who is behind a collider, if it is still there. -/
def solid? (s : Solids) (c : ColliderKey) : Option Solid :=
  if s.ground == some c then some .ground
  else if s.walls.contains c then some .wall
  else (s.owners.get? c).map .actor

end Solids

end BlockStage
