/-
  Who is on the stage: actors come, go, and are described.

  Leaving the stage releases an actor's children in place and takes it off its own parent first, so
  no link ever leads to an actor that is gone.
-/
import BlockStage.Stage.Pose

namespace BlockStage

/-- Why an entity could not come on stage. -/
inductive SpawnError where
  | emptyId
  | taken (id : String)
deriving Repr, DecidableEq

/-- The message of a refusal. -/
def SpawnError.message : SpawnError → String
  | .emptyId => "entity id must not be empty"
  | .taken id => "entity '" ++ id ++ "' already exists"

/-- An entity as hosts see it, in user space. -/
structure Snapshot (α : Type) where
  id : String
  x : α
  y : α
  rotation : α
  scale : Vec α
  visible : Bool
  depth : Int
  costume : Option String
  parent : Option String
  prototype : Option String
  stopped : Bool
  hasBody : Bool
deriving Repr

namespace Stage

variable {α : Type} [Scalar α]

/-- The actor that a description asks for, before it gets a body. -/
def actorOf (s : Stage α) (d : Spawn α) : Actor α :=
  { id := d.id
    placement :=
      { offset := s.canvas.toPixels d.position
        rotation := Canvas.rotationToPixels d.rotation
        scale := d.scale }
    parent := none
    children := []
    look :=
      { costumes := d.costumes
        current := min d.costume (d.costumes.length - 1)
        visible := d.visible
        depth := d.depth
        baseSize := d.baseSize }
    component := d.component
    prototype := d.prototype
    stopped := false
    body := none }

/-- Gives an actor the body it asks for, if it asks for one. -/
def embody (s : Stage α) (h : Handle) : Option (BodySettings α) → Stage α
  | some settings => (s.enablePhysics h settings).2
  | none => s

/-- Brings an entity on stage, after all others. -/
def spawn (s : Stage α) (d : Spawn α) : Except SpawnError (Handle × Stage α) :=
  if isBlankText d.id then .error .emptyId
  else if s.contains d.id then .error (.taken d.id)
  else
    let h := s.nextHandle
    let s := { s with actors := s.actors.insert h (s.actorOf d), nextHandle := h + 1 }
    let s := s.embody h d.body
    .ok (h, { s with index := s.index.insert d.id h, ids := s.ids ++ [d.id] })

/-- Takes an actor's body out of physics, if it has one. -/
def disembody (s : Stage α) (h : Handle) : Stage α :=
  { s with
    solids := match s.body? h with
      | some b => s.solids.remove b.key
      | none => s.solids }

/-- Takes an actor away, without regard to its id. -/
def dismiss (s : Stage α) (h : Handle) : Stage α := { s with actors := s.actors.erase h }

/-- Takes the entity with an id off the stage; answers whether there was one. -/
def despawn (s : Stage α) (id : String) : Bool × Stage α :=
  match s.find? id with
  | none => (false, s)
  | some h =>
    let s := { s with index := s.index.erase id, ids := s.ids.filter fun other => other != id }
    let s := (s.children h).foldl (fun s child => (s.detach child).2) s
    let s := (s.detach h).2
    ((s.actor? h).isSome, (s.disembody h).dismiss h)

/-- Takes everyone off the stage who bears an id, and every body out of physics. -/
def clear (s : Stage α) : Stage α :=
  { s.index.values.foldl dismiss s with
    ids := []
    index := .empty
    solids := s.solids.clearOwned
    contacts := [] }

/-- An actor as a description from which a copy can be made. -/
def spawnOf? (s : Stage α) (h : Handle) : Option (Spawn α) :=
  match s.actor? h, s.world? h with
  | some a, some w =>
    some
      { id := a.id
        name := none
        position := s.canvas.toUser w.offset
        rotation := Canvas.rotationToUser w.rotation
        scale := w.scale
        visible := a.look.visible
        depth := a.look.depth
        costumes := a.look.costumes
        costume := a.look.current
        baseSize := a.look.baseSize
        component := a.component
        body := a.body.map Body.settings
        prototype := a.prototype }
  | _, _ => none

/-- An actor as hosts see it. -/
def snapshot? (s : Stage α) (h : Handle) : Option (Snapshot α) :=
  match s.actor? h, s.world? h with
  | some a, some w =>
    let p := s.canvas.toUser w.offset
    some
      { id := a.id
        x := p.x
        y := p.y
        rotation := Canvas.rotationToUser w.rotation
        scale := w.scale
        visible := a.look.visible
        depth := a.look.depth
        costume := a.look.costume?.map Costume.id
        parent := a.parent.bind s.id?
        prototype := a.prototype
        stopped := a.stopped
        hasBody := a.body.isSome }
  | _, _ => none

/-- All actors as hosts see them, in order. -/
def snapshots (s : Stage α) : List (Snapshot α) := s.handles.filterMap s.snapshot?

end Stage

end BlockStage
