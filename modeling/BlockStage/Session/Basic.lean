/-
  Sessions: the state of one play of a scene.

  A session owns the stage, the variables, the behaviors of every entity and the tasks that are
  under way.  Host calls and scripts are steps in `Play`, which keeps the state of the session also
  when a step breaks off with a fault.
-/
import BlockStage.Clock
import BlockStage.Event
import BlockStage.Journal
import BlockStage.Key
import BlockStage.Random
import BlockStage.Script.Machine
import BlockStage.Sound
import BlockStage.Stage.Motion
import BlockStage.Stage.Sensing

namespace BlockStage

/-! ## Catalogs and templates -/

/-- The behaviors of one entity in the order of registration, and the kinds of event that they wait
    for. -/
structure Catalog where
  behaviors : List Behavior
  mask : EventMask

namespace Catalog

/-- No behaviors. -/
def empty : Catalog := ⟨[], .empty⟩

instance : Inhabited Catalog := ⟨empty⟩

/-- Is a behavior of this identity registered? -/
def contains (c : Catalog) (id : Nat) : Bool := c.behaviors.any fun b => b.id == id

/-- Adds a behavior unless it is registered already; answers whether it was added. -/
def register (c : Catalog) (b : Behavior) : Bool × Catalog :=
  if c.contains b.id then (false, c)
  else (true, ⟨c.behaviors ++ [b], c.mask.union (.only b.trigger.kind)⟩)

/-- Adds behaviors in order; answers how many were added. -/
def registerAll (c : Catalog) (bs : List Behavior) : Nat × Catalog :=
  bs.foldl
    (fun acc b =>
      let r := acc.2.register b
      (if r.1 then acc.1 + 1 else acc.1, r.2))
    (0, c)

/-- The behaviors whose trigger passes a test, in order. -/
def filter (c : Catalog) (test : Trigger → Bool) : List Behavior :=
  c.behaviors.filter fun b => test b.trigger

end Catalog

/-- What clones are made from. -/
structure Template where
  spawn : Spawn Float32
  catalog : Catalog

/-! ## The scheduler -/

/-- Tasks that wait, the entity and behavior of each, and the start scripts that are still to run,
    one at a time. -/
structure Scheduler where
  waiting : List Task
  active : List (String × Nat)
  startQueue : List (String × Behavior)
  startTask : Option Task
  starting : Bool

namespace Scheduler

/-- Nothing to do. -/
def idle : Scheduler := ⟨[], [], [], none, false⟩

/-- A start phase with the given scripts. -/
def beginStart (s : Scheduler) (queue : List (String × Behavior)) : Scheduler :=
  { s with startQueue := queue, startTask := none, starting := true }

/-- The number of tasks that wait. -/
def waitingTasks (s : Scheduler) : Nat :=
  s.waiting.length + if s.startTask.isSome then 1 else 0

/-- Is an instance of a behavior under way on an entity? -/
def isActive (s : Scheduler) (entity : String) (behavior : Nat) : Bool :=
  s.active.contains (entity, behavior)

/-- Notes that an instance is under way. -/
def activate (s : Scheduler) (entity : String) (behavior : Nat) : Scheduler :=
  if s.isActive entity behavior then s else { s with active := s.active ++ [(entity, behavior)] }

/-- Notes that an instance is over. -/
def deactivate (s : Scheduler) (entity : String) (behavior : Nat) : Scheduler :=
  { s with active := s.active.filter fun k => !(k == (entity, behavior)) }

end Scheduler

/-! ## Sessions -/

/-- The state of a session.  While `draining` is set, clones are only queued for their start
    scripts; `cloneBudget` bounds how many queued clones one call may start. -/
structure Session where
  config : Config
  running : Bool
  stage : Stage Float32
  store : VariableStore
  costumes : Table String (Costume Float32)
  sounds : Table String Sound
  catalogs : Table String Catalog
  templates : Table String Template
  scheduler : Scheduler
  loopsActive : Bool
  inbox : List String
  touching : List (String × String)
  touchingBefore : List (String × String)
  input : InputState
  player : Player
  journal : Journal
  journalShared : Bool
  events : List Event
  clock : Clock
  generator : Generator
  pendingScene : Option String
  cloneSerial : Nat
  draining : Bool
  cloneStarts : List String
  nextBehavior : Nat
  cloneBudget : Nat

/-- A step of a session, which may break off. -/
abbrev Play := EStateM Fault Session

namespace Session

/-- The number of queued clones that one call may start. -/
def usualCloneBudget : Nat := 1000000

/-- A session that has not loaded a scene.  Without a seed it draws the numbers of seed 0. -/
def new (config : Config) : Session :=
  { config := config
    running := false
    stage := Stage.new config.canvas config.physics
    store := .empty
    costumes := .empty
    sounds := .empty
    catalogs := .empty
    templates := .empty
    scheduler := .idle
    loopsActive := false
    inbox := []
    touching := []
    touchingBefore := []
    input := .empty
    player := Player.new config.audioHistory
    journal := Journal.new config.logCapacity
    journalShared := false
    events := []
    clock := .start
    generator := Generator.ofSeed (config.seed.getD 0)
    pendingScene := none
    cloneSerial := 0
    draining := false
    cloneStarts := []
    nextBehavior := 1
    cloneBudget := usualCloneBudget }

/-- The simulated time. -/
def now (s : Session) : Float := s.clock.elapsed

/-- Writes an entry into the journal. -/
def note (s : Session) (kind : EntryKind) (message : String) : Session :=
  { s with journal := s.journal.push s.now kind message }

/-- Tells the host of an event. -/
def emit (s : Session) (e : Event) : Session := { s with events := s.events ++ [e] }

/-- The actor of an id. -/
def handle? (s : Session) (id : String) : Option Handle := s.stage.find? id

/-- Is the entity on stage and not stopped? -/
def isLive (s : Session) (id : String) : Bool :=
  match s.handle? id with
  | some h => !s.stage.isStopped h
  | none => false

/-- May scripts of the entity go on? -/
def mayRun (s : Session) (id : String) : Bool := s.running && s.isLive id

/-- Is the entity a clone? -/
def isClone (s : Session) (id : String) : Bool :=
  match s.handle? id with
  | some h => s.stage.isClone h
  | none => false

/-- The behaviors of an entity that pass a test. -/
def behaviors (s : Session) (id : String) (test : Trigger → Bool) : List Behavior :=
  match s.catalogs.get? id with
  | some c => c.filter test
  | none => []

/-- Does the entity wait for this kind of event and take part? -/
def listens (s : Session) (kind : EventKind) (id : String) : Bool :=
  (match s.catalogs.get? id with
    | some c => c.mask.has kind
    | none => false) && s.isLive id

/-- The entities that an event of this kind is delivered to, in order. -/
def listeners (s : Session) (kind : EventKind) : List String := s.stage.ids.filter (s.listens kind)

/-- The number of clones on stage. -/
def liveClones (s : Session) : Nat := (s.stage.handles.filter s.stage.isClone).length

/-- Where an entity is in user space. -/
def position? (s : Session) (id : String) : Option (Vec Float32) :=
  (s.handle? id).bind s.stage.position?

/-- The direction of an entity in degrees. -/
def direction? (s : Session) (id : String) : Option Float32 :=
  (s.handle? id).bind s.stage.direction?

/-- The horizontal scale of an entity. -/
def scale? (s : Session) (id : String) : Option Float32 :=
  ((s.handle? id).bind s.stage.scale?).map Vec.x

/-- The number of an entity's costume, from 0. -/
def costume? (s : Session) (id : String) : Option Nat :=
  ((s.handle? id).bind s.stage.actor?).map fun a => a.look.current

/-- Is the entity on the ground? -/
def onGround (s : Session) (id : String) : Bool :=
  match s.handle? id with
  | some h => s.stage.onGround h
  | none => false

/-- The velocity of an entity's body in user space. -/
def velocity? (s : Session) (id : String) : Option (Vec Float32) :=
  (s.handle? id).bind s.stage.velocity?

/-- The pointer in user space. -/
def pointer (s : Session) : Vec Float32 := s.stage.canvas.toUser s.input.pointer

/-- An entity as hosts see it. -/
def snapshot? (s : Session) (id : String) : Option (Snapshot Float32) :=
  (s.handle? id).bind s.stage.snapshot?

end Session

namespace Play

/-- A question about the session. -/
def ask {α : Type} (f : Session → α) : Play α := do return f (← get)

/-- A change of the session that cannot fail. -/
def change (f : Session → Session) : Play Unit := modify f

/-- A change of the session with an answer. -/
def changing {α : Type} (f : Session → α × Session) : Play α := modifyGet f

end Play

end BlockStage
