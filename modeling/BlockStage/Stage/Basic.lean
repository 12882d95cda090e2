/-
  The stage: the live entities on the canvas.

  An actor is found by its handle, which is given out once and never again, so a handle kept after
  its actor has gone finds nothing.  The table of actors lists them in the order in which they came;
  that order decides iteration, clicks and the pairing of touches.  An id names the one actor that
  bears it.
-/
import BlockStage.Config
import BlockStage.Geometry.Placement
import BlockStage.Stage.Body
import BlockStage.Table

namespace BlockStage

/-! ## Looks -/

/-- How an entity is drawn: its costumes and the worn one, and a size for when there is none. -/
structure Look (α : Type) where
  costumes : List (Costume α)
  current : Nat
  visible : Bool
  depth : Int
  baseSize : Vec α
deriving Repr

namespace Look

variable {α : Type} [Scalar α]

/-- The worn costume. -/
def costume? (l : Look α) : Option (Costume α) := l.costumes[l.current]?

/-- The size of what is drawn, before scaling. -/
def visualSize (l : Look α) : Vec α :=
  match l.costume? with
  | some c => c.visibleSize
  | none => l.baseSize

/-- The first costume with an id; without one, the first with that name in any letter case. -/
def find? (l : Look α) (key : String) : Option Nat :=
  match l.costumes.findIdx? fun c => c.id == key with
  | some i => some i
  | none => l.costumes.findIdx? fun c => eqIgnoringAsciiCase c.name key

end Look

/-! ## Actors -/

/-- A live entity.  Its placement is read in the frame of its parent, if it has one; a clone knows
    its prototype. -/
structure Actor (α : Type) where
  id : String
  placement : Placement α
  parent : Option Handle
  children : List Handle
  look : Look α
  component : Option String
  prototype : Option String
  stopped : Bool
  body : Option (Body α)
deriving Repr

/-- What an entity is made from, in user space. -/
structure Spawn (α : Type) where
  id : String
  name : Option String
  position : Vec α
  rotation : α
  scale : Vec α
  visible : Bool
  depth : Int
  costumes : List (Costume α)
  costume : Nat
  baseSize : Vec α
  component : Option String
  body : Option (BodySettings α)
  prototype : Option String
deriving Repr

/-- A visible entity in the middle of the canvas, without costumes, 64 pixels wide and high. -/
def Spawn.new {α : Type} [Scalar α] (id : String) : Spawn α :=
  { id := id
    name := none
    position := Vec.zero
    rotation := Scalar.zero
    scale := Vec.both Scalar.one
    visible := true
    depth := 0
    costumes := []
    costume := 0
    baseSize := Vec.both (Scalar.ofInt 64)
    component := none
    body := none
    prototype := none }

/-! ## The stage -/

/-- Two colliders in contact, the first of them an actor's. -/
structure Contact where
  first : ColliderKey
  second : ColliderKey
deriving Repr, DecidableEq

/-- The ids in the order of registration, the handle of each, the actors behind the handles, the
    canvas and the physics around them, the solids that physics knows, the contacts of the last step,
    and how often each phase of the game loop has run. -/
structure Stage (α : Type) where
  canvas : Canvas α
  physics : PhysicsConfig α
  ids : List String
  index : Table String Handle
  actors : Table Handle (Actor α)
  nextHandle : Handle
  solids : Solids
  contacts : List Contact
  phases : Table String Nat

namespace Stage

variable {α : Type}

/-- An empty stage. -/
def new (canvas : Canvas α) (physics : PhysicsConfig α) : Stage α :=
  ⟨canvas, physics, [], .empty, .empty, 0, .new physics.ground physics.walls, [], .empty⟩

/-- The actor behind a handle, if it is live. -/
def actor? (s : Stage α) (h : Handle) : Option (Actor α) := s.actors.get? h

/-- The handle of an id. -/
def find? (s : Stage α) (id : String) : Option Handle := s.index.get? id

/-- Is an id taken? -/
def contains (s : Stage α) (id : String) : Bool := s.index.contains id

/-- The handles of the ids in order. -/
def handles (s : Stage α) : List Handle := s.ids.filterMap s.find?

/-- The id of an actor. -/
def id? (s : Stage α) (h : Handle) : Option String := (s.actor? h).map Actor.id

/-- The line at which the ground begins. -/
def groundLine? (s : Stage α) : Option α := if s.physics.ground then some s.canvas.height else none

/-- Changes an actor, if it is live. -/
def modify (s : Stage α) (h : Handle) (f : Actor α → Actor α) : Stage α :=
  { s with actors := s.actors.modify h f }

/-- Changes a live actor; answers whether it is live. -/
def change (s : Stage α) (h : Handle) (f : Actor α → Actor α) : Bool × Stage α :=
  ((s.actor? h).isSome, s.modify h f)

/-- Changes the look of a live actor; answers whether it is live. -/
def changeLook (s : Stage α) (h : Handle) (f : Look α → Look α) : Bool × Stage α :=
  s.change h fun a => { a with look := f a.look }

/-- Changes the body of an actor, if it has one. -/
def modifyBody (s : Stage α) (h : Handle) (f : Body α → Body α) : Stage α :=
  s.modify h fun a => { a with body := a.body.map f }

/-- Counts one more run of a phase. -/
def record (s : Stage α) (phase : String) : Stage α :=
  { s with phases := s.phases.insert phase ((s.phases.get? phase).getD 0 + 1) }

/-- Forgets how often phases have run. -/
def forgetPhases (s : Stage α) : Stage α := { s with phases := .empty }

/-! ## Looks and flags -/

/-- Shows or hides an actor. -/
def setVisible (s : Stage α) (h : Handle) (visible : Bool) : Bool × Stage α :=
  s.changeLook h fun l => { l with visible := visible }

/-- Puts an actor at a depth; the deepest number is drawn on top. -/
def setDepth (s : Stage α) (h : Handle) (depth : Int) : Bool × Stage α :=
  s.changeLook h fun l => { l with depth := depth }

/-- Puts on the costume with an id or name. -/
def switchCostume (s : Stage α) (h : Handle) (key : String) : Bool × Stage α :=
  match (s.actor? h).bind fun a => a.look.find? key with
  | some i => s.changeLook h fun l => { l with current := i }
  | none => (false, s)

/-- Puts on the next costume, after the last one the first. -/
def nextCostume (s : Stage α) (h : Handle) : Bool × Stage α :=
  match s.actor? h with
  | some a =>
    if a.look.costumes.isEmpty then (false, s)
    else s.changeLook h fun l => { l with current := (l.current + 1) % l.costumes.length }
  | none => (false, s)

/-- Marks an actor as stopped or not; there is no mark for an actor that is gone. -/
def setStopped? (s : Stage α) (h : Handle) (stopped : Bool) : Option (Stage α) :=
  match s.actor? h with
  | some _ => some (s.modify h fun a => { a with stopped := stopped })
  | none => none

/-- Is the actor live and stopped? -/
def isStopped (s : Stage α) (h : Handle) : Bool :=
  match s.actor? h with
  | some a => a.stopped
  | none => false

/-- Marks all actors as stopped or not. -/
def setAllStopped (s : Stage α) (stopped : Bool) : Stage α :=
  s.handles.foldl (fun s h => s.modify h fun a => { a with stopped := stopped }) s

/-- Is the actor a clone? -/
def isClone (s : Stage α) (h : Handle) : Bool :=
  match s.actor? h with
  | some a => a.prototype.isSome
  | none => false

/-- The prototype of a clone, and the id of any other actor. -/
def root? (s : Stage α) (h : Handle) : Option String :=
  (s.actor? h).map fun a => a.prototype.getD a.id

/-- The component of an actor, if it has one. -/
def component? (s : Stage α) (h : Handle) : Option String := (s.actor? h).bind Actor.component

/-- The body of an actor, if it has one. -/
def body? (s : Stage α) (h : Handle) : Option (Body α) := (s.actor? h).bind Actor.body

end Stage

end BlockStage
