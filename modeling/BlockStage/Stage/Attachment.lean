/-
  Attachments: an actor can follow another, its parent.

  The stored placement of an attached actor is read in its parent's frame, so the placement on the
  stage is composed link by link.  Attaching and detaching re-express the stored placement, so that
  nothing moves on the canvas.  The body of an attached actor is pinned to it.

  Walks up the chain of parents are bounded: a placement is composed with at most `linkLimit`
  parents, and a chain is searched for an ancestor a step further than that.
-/
import BlockStage.Stage.Basic

namespace BlockStage

/-- Why an actor was not attached. -/
inductive AttachError where
  | itself
  | cycle
  | notLive
deriving Repr, DecidableEq

/-- The message of a refusal. -/
def AttachError.message : AttachError → String
  | .itself => "an entity cannot be attached to itself"
  | .cycle => "attaching would create a cycle"
  | .notLive => "attach target is not a live entity"

namespace Stage

variable {α : Type} [Scalar α]

/-- The number of parents that a placement is composed with. -/
def linkLimit : Nat := 64

/-- A placement carried out of the frames of a parent and its parents, as far as `links` reach. -/
def carry (s : Stage α) : Nat → Option Handle → Placement α → Placement α
  | 0, _, p => p
  | _ + 1, none, p => p
  | links + 1, some h, p =>
    match s.actor? h with
    | some a => s.carry links a.parent (a.placement.compose p)
    | none => p

/-- Where an actor is on the stage. -/
def world? (s : Stage α) (h : Handle) : Option (Placement α) :=
  (s.actor? h).map fun a => s.carry linkLimit a.parent a.placement

/-- The parent of an actor. -/
def parent? (s : Stage α) (h : Handle) : Option Handle := (s.actor? h).bind Actor.parent

/-- The actors attached to an actor, in the order in which they were attached. -/
def children (s : Stage α) (h : Handle) : List Handle :=
  match s.actor? h with
  | some a => a.children
  | none => []

/-- Is the candidate met on the way up a chain that begins at the given link? -/
def meets (s : Stage α) (candidate : Handle) : Nat → Option Handle → Bool
  | 0, _ => false
  | _ + 1, none => false
  | steps + 1, some h => h == candidate || s.meets candidate steps (s.parent? h)

/-- Is the candidate an ancestor of an actor, as far as the search goes? -/
def isAncestor (s : Stage α) (candidate h : Handle) : Bool :=
  s.meets candidate (linkLimit + 1) (s.parent? h)

/-- The stage with one link and its back link removed and the actor where it was on the canvas. -/
def release (s : Stage α) (child parent : Handle) : Stage α :=
  let world := s.world? child
  let s := s.modify parent fun a => { a with children := a.children.filter fun c => c != child }
  s.modify child fun a =>
    { a with
      parent := none
      placement := world.getD a.placement
      body := a.body.map fun b =>
        { b with
          pinned := false
          center := (world.map Placement.offset).getD b.center } }

/-- Takes an actor off its parent; answers whether it had one. -/
def detach (s : Stage α) (child : Handle) : Bool × Stage α :=
  match s.parent? child with
  | some parent => (true, s.release child parent)
  | none => (false, s)

/-- The stage with a link and its back link added, for actors with the given placements. -/
def link (s : Stage α) (child parent : Handle) (childWorld parentWorld : Placement α) : Stage α :=
  let s := s.modify child fun a =>
    { a with
      parent := some parent
      placement := parentWorld.seenFrom childWorld
      body := a.body.map fun b => { b with pinned := true } }
  s.modify parent fun a => { a with children := a.children ++ [child] }

/-- Attaches an actor to a parent.  A former parent is left first, also when the new one turns out
    to be gone. -/
def attach (s : Stage α) (child parent : Handle) : Except AttachError Unit × Stage α :=
  if child = parent then (.error .itself, s)
  else if s.isAncestor child parent then (.error .cycle, s)
  else
    let s := (s.detach child).2
    match s.world? child, s.world? parent with
    | some childWorld, some parentWorld => (.ok (), s.link child parent childWorld parentWorld)
    | _, _ => (.error .notLive, s)

end Stage

end BlockStage
