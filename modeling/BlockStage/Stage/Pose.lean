/-
  Poses: where actors are, how they are turned and how large they are.

  Hosts and scripts speak of user space, the stage keeps pixels.  Setting a pose re-expresses it in
  the frame of the actor's parent and moves the body along; a pose with a number that is not finite
  is refused.
-/
import BlockStage.Stage.Attachment

namespace BlockStage

namespace Stage

variable {α : Type} [Scalar α]

/-- Moves the body of an actor to where the actor is. -/
def carryBody (s : Stage α) (h : Handle) : Stage α :=
  match s.world? h with
  | some w => s.modifyBody h fun b => b.moveTo w.offset w.rotation
  | none => s

/-- A placement on the stage, read in the frame of an actor's parent. -/
def inFrame (s : Stage α) (h : Handle) (w : Placement α) : Placement α :=
  match (s.parent? h).bind s.world? with
  | some parent => parent.seenFrom w
  | none => w

/-- Puts an actor at a placement on the stage, its rotation wrapped. -/
def setWorld (s : Stage α) (h : Handle) (w : Placement α) : Bool × Stage α :=
  if !w.isFinite || (s.actor? h).isNone then (false, s)
  else
    let stored := s.inFrame h { w with rotation := wrapAngle w.rotation }
    (true, (s.modify h fun a => { a with placement := stored }).carryBody h)

/-- Sets a part of an actor's placement on the stage. -/
def adjustWorld (s : Stage α) (h : Handle) (f : Placement α → Placement α) : Bool × Stage α :=
  match s.world? h with
  | some w => s.setWorld h (f w)
  | none => (false, s)

/-- Where an actor is in user space. -/
def position? (s : Stage α) (h : Handle) : Option (Vec α) :=
  (s.world? h).map fun w => s.canvas.toUser w.offset

/-- Moves an actor to a point of user space. -/
def setPosition (s : Stage α) (h : Handle) (p : Vec α) : Bool × Stage α :=
  s.adjustWorld h fun w => { w with offset := s.canvas.toPixels p }

/-- The direction of an actor in degrees, in `(-180, 180]`. -/
def direction? (s : Stage α) (h : Handle) : Option α :=
  (s.world? h).map fun w => Canvas.rotationToUser w.rotation

/-- Turns an actor to a direction in degrees. -/
def setDirection (s : Stage α) (h : Handle) (degrees : α) : Bool × Stage α :=
  s.adjustWorld h fun w => { w with rotation := Canvas.rotationToPixels degrees }

/-- The scale of an actor. -/
def scale? (s : Stage α) (h : Handle) : Option (Vec α) := (s.world? h).map Placement.scale

/-- Scales an actor; its body keeps its size. -/
def setScale (s : Stage α) (h : Handle) (scale : Vec α) : Bool × Stage α :=
  s.adjustWorld h fun w => { w with scale := scale }

/-- The actors without a parent. -/
def rootHandles (s : Stage α) : List Handle := s.handles.filter fun h => (s.parent? h).isNone

/-- Moves an actor without a parent, and its body, by an offset in pixels. -/
def shift (offset : Vec α) (s : Stage α) (h : Handle) : Stage α :=
  (s.modify h fun a =>
    { a with placement := { a.placement with offset := a.placement.offset + offset } }).carryBody h

/-- Gives the canvas a new size; everyone keeps the place in user space.  The ground and the walls
    are put up anew, so nobody is behind the old ones any more. -/
def resizeCanvas (s : Stage α) (width height : α) : Bool × Stage α :=
  if Scalar.lessEq width Scalar.zero || Scalar.lessEq height Scalar.zero then (false, s)
  else
    let canvas : Canvas α := ⟨width, height⟩
    let offset := canvas.middle - s.canvas.middle
    let s := s.rootHandles.foldl (shift offset) { s with canvas := canvas }
    (true, { s with solids := s.solids.rebuild s.physics.ground s.physics.walls })

/-! ## Physics settings of one actor -/

/-- Gives an actor a body of its present visual size; answers false if it has one or is gone. -/
def enablePhysics (s : Stage α) (h : Handle) (settings : BodySettings α) : Bool × Stage α :=
  match s.actor? h, s.world? h with
  | some a, some w =>
    if a.body.isSome then (false, s)
    else
      let half := ((a.look.visualSize.times w.scale.abs).scale Scalar.half)
      let (keys, solids) := s.solids.addOwned h
      let body :=
        Body.new keys w.offset w.rotation half s.physics.minBodySize settings a.parent.isSome
      (true, { s with solids := solids }.modify h fun a => { a with body := some body })
  | _, _ => (false, s)

/-- Has the actor a body? -/
def hasBody (s : Stage α) (h : Handle) : Bool := (s.body? h).isSome

/-- The settings of an actor's body. -/
def bodySettings? (s : Stage α) (h : Handle) : Option (BodySettings α) :=
  (s.body? h).map Body.settings

/-- Gives a body a velocity in user space.  A pinned body keeps its own, but has been asked. -/
def setVelocity (s : Stage α) (h : Handle) (v : Vec α) : Bool × Stage α :=
  (s.hasBody h,
    s.modifyBody h fun b => if b.pinned then b else { b with velocity := Canvas.flip v })

/-- The velocity of a body in user space. -/
def velocity? (s : Stage α) (h : Handle) : Option (Vec α) :=
  (s.body? h).map fun b => Canvas.flip b.velocity

/-- Scales the pull of gravity on a body. -/
def setGravityScale (s : Stage α) (h : Handle) (scale : α) : Bool × Stage α :=
  (s.hasBody h,
    s.modifyBody h fun b => { b with settings := { b.settings with gravityScale := scale } })

end Stage

end BlockStage
