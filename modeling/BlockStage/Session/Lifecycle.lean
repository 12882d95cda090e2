/-
  The life of a session: loading a scene, starting, updating, and ending.

  An update moves the physics and the clock, takes the start phase on, lets paused tasks go on, runs
  looping behaviors, delivers touches, and last the messages that were queued before it began.
-/
import BlockStage.Script.Compiler
import BlockStage.Session.Delivery

namespace BlockStage

namespace Session

/-! ## Loading -/

/-- Adds costumes, each in place of one with the same id. -/
def addCostumes (s : Session) (l : List (Costume Float32)) : Session :=
  { s with costumes := l.foldl (fun t c => t.insert c.id c) s.costumes }

/-- Adds sounds, each in place of one with the same id. -/
def addSounds (s : Session) (l : List Sound) : Session :=
  { s with sounds := l.foldl (fun t x => t.insert x.id x) s.sounds }

/-- Defines variables. -/
def defineVariables (s : Session) (l : List VariableDefinition) : Session :=
  { s with store := s.store.defineAll l }

/-- Compiles a program under identities of this session. -/
def compile (s : Session) (p : Program) : CompiledProgram × Session :=
  let c := p.compile s.nextBehavior
  (c, { s with nextBehavior := c.nextId })

/-- Adds compiled behaviors to an entity's catalog, after noting what was wrong with the program;
    answers how many were added. -/
def addBehaviors (s : Session) (id : String) (c : CompiledProgram) :
    Except SessionError Nat × Session :=
  let s := c.diagnostics.foldl (fun s d => s.note .error (id ++ ": " ++ d.line)) s
  match s.catalogs.get? id with
  | none => (.error (.noEntityForBehaviors id), s)
  | some catalog =>
    let (n, catalog) := catalog.registerAll c.behaviors
    (.ok n, { s with catalogs := s.catalogs.insert id catalog })

/-- The known costumes among some ids; the unknown ones are noted. -/
def costumesOf (s : Session) (entity : String) : List String → List (Costume Float32) × Session
  | [] => ([], s)
  | id :: rest =>
    match s.costumes.get? id with
    | some c =>
      let (others, s) := costumesOf s entity rest
      (c :: others, s)
    | none =>
      costumesOf (s.note .error (entity ++ ": unknown costume '" ++ id ++ "'")) entity rest

/-- What a described entity is spawned from. -/
def spawnOf (e : EntityDescription) (costumes : List (Costume Float32)) : Spawn Float32 :=
  let base : Spawn Float32 := Spawn.new e.id
  { base with
    name := e.name
    position := ⟨e.x, e.y⟩
    rotation := e.rotation
    scale := Vec.both e.scale
    visible := e.visible
    depth := e.depth
    costumes := costumes
    costume := e.costume
    baseSize := match e.size with
      | some (w, h) => ⟨w, h⟩
      | none => base.baseSize
    component := e.component
    body := e.physics }

/-- Registers a described entity with its behaviors and its template. -/
def loadEntity (s : Session) (e : EntityDescription) : Except SessionError Unit × Session :=
  let (costumes, s) := s.costumesOf e.id e.costumes
  match s.enroll (spawnOf e costumes) with
  | .error error => (.error (.register e.id error), s)
  | .ok s =>
    let (compiled, s) := s.compile e.program
    match s.addBehaviors e.id compiled with
    | (.error error, s) => (.error error, s)
    | (.ok _, s) =>
      match s.saveTemplate e.id with
      | .error error => (.error error, s)
      | .ok s => (.ok (), s)

/-- Registers described entities in order, up to the first refusal. -/
def loadEntities (s : Session) : List EntityDescription → Except SessionError Unit × Session
  | [] => (.ok (), s)
  | e :: rest =>
    match s.loadEntity e with
    | (.ok _, s) => loadEntities s rest
    | r => r

/-- Takes everyone off the stage and forgets templates, local values and touches. -/
def clearStage (s : Session) : Session :=
  { s with
    stage := s.stage.clear
    catalogs := .empty
    templates := .empty
    store := s.store.dropAllLocals
    touching := []
    touchingBefore := []
    cloneStarts := []
    cloneSerial := 0 }

/-- Loads a scene in place of the present one.  Global variables keep their values. -/
def loadScene (s : Session) (scene : Scene) : Except SessionError Unit × Session :=
  let s := { s.stopAll.clearStage with pendingScene := none }
  let s := ((s.defineVariables scene.definitions).addCostumes scene.costumes).addSounds scene.sounds
  match s.loadEntities scene.entities with
  | (.ok _, s) =>
    (.ok (), s.note .info
      ("scene '" ++ scene.name ++ "' loaded with " ++ toString scene.entities.length ++ " entities"))
  | r => r

/-! ## Ending -/

/-- Ends the session: everything is stopped and removed, and all values, inputs, sounds, events and
    the clock begin anew. -/
def cleanup (s : Session) : Session :=
  let s := s.stopAll.clearStage
  { s with
    store := s.store.forgetValues
    input := s.input.clear
    player := s.player.clear
    events := []
    clock := .start
    pendingScene := none
    journalShared := false
    stage := s.stage.forgetPhases }

/-! ## Physics -/

/-- The event of a contact of two bodies, if both entities are still there. -/
def contactEvent? (s : Session) (p : Bool × Handle × Handle) : Option Event :=
  match s.stage.id? p.2.1, s.stage.id? p.2.2 with
  | some a, some b => some (Event.contact a b p.1)
  | _, _ => none

/-- Tells the host of what a step reported, as far as the entities are still there. -/
def reportStep (s : Session) (r : StepReport) : Session :=
  let grounds := r.grounds.filterMap fun g =>
    (s.stage.id? g.1).map fun id => Event.groundContact id g.2
  { s with events := s.events ++ grounds ++ r.pairs.filterMap s.contactEvent? }

/-- One step of physics, and the end of the playbacks whose time has come. -/
def stepPhysics (s : Session) (dt : Float32) : Session :=
  let (report, stage) := s.stage.step dt
  let s := { s with stage := stage }.reportStep report
  { s with player := s.player.prune s.now }

/-- Gives the canvas a new size. -/
def resizeCanvas (s : Session) (width height : Float32) : Bool × Session :=
  let r := s.stage.resizeCanvas width height
  (r.1, { s with stage := r.2 })

end Session

namespace Play

/-- Begins to run: all entities take part again, and their start scripts run in order. -/
def start : Play Unit := do
  if ← ask Session.running then
    change fun s => s.note .info "start ignored: already running"
  else
    change fun s =>
      { s with
        running := true
        stage := s.stage.setAllStopped false
        loopsActive := false
        clock := s.clock.resetTimer
        journalShared := true }
    let s ← get
    let queue := s.stage.ids.flatMap fun id =>
      (s.behaviors id fun t => t == .start).map fun b => (id, b)
    change fun s => s.note .info ("started with " ++ toString queue.length ++ " start scripts")
    schedule fun q => q.beginStart queue
    advanceStart

/-- Counts a phase of the game loop. -/
def countPhase (name : String) : Play Unit :=
  change fun s => { s with stage := s.stage.record name }

/-- Takes all queued messages. -/
def takeInbox : Play (List String) := changing fun s => (s.inbox, { s with inbox := [] })

/-- Moves the clock. -/
def tick (dt : Float32) : Play Unit := do
  match Span.ofSeconds dt with
  | .ok span => change fun s => { s with clock := s.clock.tick span }
  | .error fault => throw fault

/-- One update of so many seconds; negative times and not-a-number count as none. -/
def updateBy (dt : Float32) : Play Unit := do
  if ← ask Session.running then
    let dt := Single.max dt 0
    let inbox ← takeInbox
    tick dt
    change fun s => s.stepPhysics dt
    countPhase "physics"
    advanceStart
    resumeAll
    countPhase "tasks"
    runLoops
    countPhase "forever"
    if ← ask Session.running then deliverTouches
    countPhase "touching"
    if ← ask Session.running then deliverMessages inbox
    countPhase "messages"

/-- One update of the configured frame time. -/
def update : Play Unit := do updateBy (← ask fun s => s.config.frameTime)

end Play

end BlockStage
