/-
  Sensing: what an actor touches and how far it is from things.

  Two actors with bodies touch when the outlines of the bodies do; otherwise the boxes around what
  is drawn decide.  Hidden and stopped actors neither touch nor are touched.  A hit test is exact:
  it brings the point into the frame of the costume and asks for the visible rectangle.
-/
import BlockStage.Block.Target
import BlockStage.Stage.Pose

namespace BlockStage

/-- The two boxes by which an actor is sensed. -/
structure Silhouette (α : Type) where
  drawn : Option (Box α)
  body : Option (Box α)

namespace Silhouette

variable {α : Type} [Scalar α]

/-- Have two boxes, if both are there, a point in common? -/
def meet : Option (Box α) → Option (Box α) → Bool
  | some a, some b => a.overlaps b
  | _, _ => false

/-- Do two silhouettes touch? -/
def overlaps (a b : Silhouette α) : Bool :=
  if a.body.isSome && b.body.isSome then meet a.body b.body else meet a.drawn b.drawn

end Silhouette

namespace Stage

variable {α : Type} [Scalar α]

/-- The box around what is drawn of an actor with the given look, at a placement on the stage. -/
def drawnBox (look : Look α) (w : Placement α) : Box α :=
  let half := (look.visualSize.times w.scale.abs).scale Scalar.half
  let offset :=
    match look.costume? with
    | some c => c.visibleOffset.times w.scale
    | none => (Vec.zero : Vec α).times w.scale
  let heading := Vec.ofAngle w.rotation
  let center := w.offset + heading.rotate offset
  let h := heading.abs
  Box.around center ⟨half.x * h.x + half.y * h.y, half.x * h.y + half.y * h.x⟩

/-- The box around what is drawn of an actor. -/
def drawnBounds? (s : Stage α) (h : Handle) : Option (Box α) :=
  match s.actor? h, s.world? h with
  | some a, some w => some (drawnBox a.look w)
  | _, _ => none

/-- The outline of an actor's body. -/
def outline? (s : Stage α) (h : Handle) : Option (Box α) := (s.body? h).map Body.outline

/-- How an actor is sensed. -/
def silhouette (s : Stage α) (h : Handle) : Silhouette α := ⟨s.drawnBounds? h, s.outline? h⟩

/-- Do two actors overlap, whether or not they can be sensed? -/
def overlap (s : Stage α) (a b : Handle) : Bool := (s.silhouette a).overlaps (s.silhouette b)

/-- Can the actor be sensed? -/
def isPerceptible (s : Stage α) (h : Handle) : Bool :=
  match s.actor? h with
  | some a => !a.stopped && a.look.visible
  | none => false

/-- Does what is drawn reach a border of the canvas? -/
def touchesEdge (s : Stage α) (h : Handle) : Bool :=
  match s.drawnBounds? h with
  | some b =>
    Scalar.lessEq b.min.x Scalar.zero || Scalar.lessEq b.min.y Scalar.zero
      || Scalar.lessEq s.canvas.width b.max.x || Scalar.lessEq s.canvas.height b.max.y
  | none => false

/-- Does an actor stand on the ground?  A body does so while it has contacts with the ground; anything
    else while what is drawn reaches the ground line, give or take the tolerance. -/
def onGround (s : Stage α) (h : Handle) : Bool :=
  match s.body? h with
  | some b => decide (0 < b.grounds)
  | none =>
    match s.groundLine?, s.drawnBounds? h with
    | some ground, some b => Scalar.lessEq (ground - s.physics.groundTolerance) b.max.y
    | _, _ => false

/-- Is a point within the visible rectangle of a costume at a placement on the stage? -/
def hits (costume : Costume α) (w : Placement α) (p : Vec α) : Bool :=
  let unturned := (Vec.ofAngle (-w.rotation)).rotate (p - w.offset)
  let inner := unturned.quotient (Placement.divisors w.scale)
  let half := costume.visibleSize.scale Scalar.half
  let fromMiddle := (inner - costume.visibleOffset).abs
  Scalar.lessEq fromMiddle.x half.x && Scalar.lessEq fromMiddle.y half.y

/-- Is a point on an actor?  Without a costume, is it in the box around what is drawn? -/
def isHit (s : Stage α) (h : Handle) (p : Vec α) : Bool :=
  match s.actor? h, s.world? h with
  | some a, some w =>
    match a.look.costume? with
    | some c => hits c w p
    | none => (drawnBox a.look w).contains p
  | _, _ => false

/-- Is `other` what a target asks for, seen from `viewer`? -/
def isMeant (s : Stage α) (viewer other : Handle) (target : Target) : Bool :=
  if viewer = other then false
  else
    match target with
    | .entity id => s.id? other == some id
    | .component c => s.component? other == some c
    | .myClones => s.isClone other && s.root? other == s.root? viewer
    | .edge | .ground | .pointer => false

/-- Does an actor touch a target?  The pointer is given in pixels. -/
def isTouching (s : Stage α) (h : Handle) (target : Target) (pointer : Vec α) : Bool :=
  if !s.isPerceptible h then false
  else
    match target with
    | .edge => s.touchesEdge h
    | .ground => s.onGround h
    | .pointer => s.isHit h pointer
    | _ =>
      s.handles.any fun other =>
        s.isMeant h other target && s.isPerceptible other && s.overlap h other

/-- The distance from a point to a border of the canvas, 0 outside. -/
def edgeDistance (s : Stage α) (p : Vec α) : α :=
  let least := Scalar.minOf (Scalar.minOf p.x p.y) (s.canvas.width - p.x)
  Scalar.maxOf (Scalar.minOf least (s.canvas.height - p.y)) Scalar.zero

/-- The distance between an actor and a target; of several matching actors, to the nearest. -/
def distance? (s : Stage α) (h : Handle) (target : Target) (pointer : Vec α) : Option α := do
  let origin := (← s.world? h).offset
  match target with
  | .pointer => some (origin.distance pointer)
  | .edge => some (s.edgeDistance origin)
  | .ground =>
    let ground ← s.groundLine?
    let bottom :=
      match (s.outline? h).orElse fun _ => s.drawnBounds? h with
      | some b => b.max.y
      | none => origin.y
    some (Scalar.maxOf (ground - bottom) Scalar.zero)
  | _ =>
    let distances :=
      (s.handles.filter fun other => s.isMeant h other target).filterMap fun other =>
        (s.world? other).map fun w => origin.distance w.offset
    match distances with
    | [] => none
    | d :: rest => some (rest.foldl Scalar.minOf d)

/-- Does an actor pass a filter?  Only targets that are actors filter at all. -/
def passes (s : Stage α) (viewer other : Handle) : Option Target → Bool
  | some target => !target.namesEntities || s.isMeant viewer other target
  | none => true

/-- The actors that can be sensed and overlap an actor, in order. -/
def allTouching (s : Stage α) (h : Handle) (filter : Option Target) : List Handle :=
  if !s.isPerceptible h then []
  else
    s.handles.filter fun other =>
      other != h && s.isPerceptible other && s.passes h other filter && s.overlap h other

end Stage

end BlockStage
