/-
  Running a fixture: a session of its own, the inputs before each step, and a record of what it
  wrote and reported.
-/
import BlockStage.Fixture.Basic
import BlockStage.Fixture.Record
import BlockStage.Session.Lifecycle

namespace BlockStage

/-- Why a fixture has no record. -/
inductive FixtureError where
  | noScene
  | unreadableScene (path : String)
  | loading (scene : String) (e : SessionError)
  | unknownScene (step : Nat) (name : String)
  | switching (step : Nat) (name : String) (e : SessionError)
  | fault (f : Fault)
deriving Repr, DecidableEq

/-- The message of an error; a fault has none. -/
def FixtureError.message : FixtureError → String
  | .noScene => "fixture needs either 'scene' or 'scene_path'"
  | .unreadableScene path => "reading scene '" ++ path ++ "'"
  | .loading scene e => "loading scene '" ++ scene ++ "': " ++ e.message
  | .unknownScene step name =>
    "step " ++ toString step ++ ": scene '" ++ name ++ "' is not part of the fixture"
  | .switching step name e =>
    "step " ++ toString step ++ ": switching to scene '" ++ name ++ "': " ++ e.message
  | .fault _ => ""

namespace Fixture

/-- The scene to begin with; `read?` gives the text of the file at a path. -/
def openingScene (f : Fixture) (read? : String → Option String) : Except FixtureError Scene :=
  match f.scene, f.scenePath with
  | some s, _ => .ok s
  | none, some path =>
    match (read? path).bind Scene.parse? with
    | some s => .ok s
    | none => .error (.unreadableScene path)
  | none, none => .error .noScene

/-- Gives one input to a session; answers the entity that it clicked. -/
def give : HostInput → Play (Option String)
  | .keyDown key => do
    discard (Play.keyDown key)
    return none
  | .keyUp key => do
    discard (Play.keyUp key)
    return none
  | .pointerMove p => do
    Play.pointerMoved p
    return none
  | .pointerDown p => Play.pointerDown p
  | .pointerUp => do
    Play.pointerUp
    return none
  | .broadcast message => do
    Play.change fun s => s.broadcast message
    return none
  | .completeSound handle => do
    Play.change fun s => { s with player := (s.player.complete handle).2 }
    return none
  | .stop => do
    Play.change Session.stopAll
    return none

/-- Gives inputs in order; answers the last entity that was clicked. -/
def giveAll : List HostInput → Option String → Play (Option String)
  | [], clicked => return clicked
  | i :: rest, clicked => do
    let hit ← give i
    giveAll rest (hit.orElse fun _ => clicked)

/-- Takes the lines of the journal, and the number of errors among them. -/
def takeLines : Play (List String × Nat) :=
  Play.changing fun s =>
    ((s.journal.lines, s.journal.count .error), { s with journal := s.journal.clear })

/-- Takes the lines of the events. -/
def takeEvents : Play (List String) :=
  Play.changing fun s => (s.events.map Event.line, { s with events := [] })

/-- A request as a line. -/
def requestLine (r : PlaybackRequest) : String :=
  r.entity ++ " " ++ r.sound ++ " #" ++ toString r.handle

/-- Takes the lines of the sounds to play. -/
def takeSounds : Play (List String) :=
  Play.changing fun s =>
    let r := s.player.takeRequests
    (r.1.map requestLine, { s with player := r.2 })

/-- Takes the name of the scene that a script has asked for. -/
def takePendingScene : Play (Option String) :=
  Play.changing fun s => (s.pendingScene, { s with pendingScene := none })

/-- Loads and starts the scene that a script has asked for. -/
def switchScene (f : Fixture) (step : Nat) : Option String → Play (Except FixtureError Unit)
  | none => return .ok ()
  | some name => do
    match f.scenes.get? name with
    | none => return .error (.unknownScene step name)
    | some scene =>
      match ← Play.changing fun s => s.loadScene scene with
      | .error e => return .error (.switching step name e)
      | .ok _ =>
        Play.start
        return .ok ()

/-- One step: the inputs, an update, and a change of scene if one was asked for. -/
def playStep (f : Fixture) (step : Nat) : Play (Except FixtureError StepRecord) := do
  let inputs := (f.inputs.filter fun i => i.step == step).map ScriptedInput.input
  let clicked ← giveAll inputs none
  Play.updateBy f.frameTime
  let pending ← takePendingScene
  match ← f.switchScene step pending with
  | .error e => return .error e
  | .ok _ =>
    let sounds ← takeSounds
    let events ← takeEvents
    let (lines, errors) ← takeLines
    return .ok
      { step := step
        lines := lines
        errors := errors
        events := events
        sounds := sounds
        clicked := clicked
        sceneSwitch := pending }

/-- So many steps from the given one on, up to the first error. -/
def playSteps (f : Fixture) : Nat → Nat → Play (Except FixtureError (List StepRecord))
  | 0, _ => return .ok []
  | n + 1, step => do
    match ← f.playStep step with
    | .error e => return .error e
    | .ok r =>
      match ← playSteps f n (step + 1) with
      | .error e => return .error e
      | .ok rest => return .ok (r :: rest)

/-- Plays the whole fixture from its first scene. -/
def play (f : Fixture) (scene : Scene) : Play (Except FixtureError Record) := do
  match ← Play.changing fun s => s.loadScene scene with
  | .error e => return .error (.loading scene.name e)
  | .ok _ =>
    Play.start
    let startup ← takeLines
    discard takeEvents
    match ← f.playSteps f.steps 0 with
    | .error e => return .error e
    | .ok results =>
      let s ← get
      return .ok
        { scene := scene.name
          steps := f.steps
          frameTime := f.frameTime
          startup := startup.1
          results := results
          finalEntities := s.stage.snapshots }

/-- The settings of a fixture's session: its own seed and frame time take the place of configured
    ones. -/
def sessionConfig (f : Fixture) : Config :=
  { f.config.getD .usual with seed := some f.seed, frameTime := f.frameTime }

/-- Runs a fixture. -/
def run (f : Fixture) (read? : String → Option String) : Except FixtureError Record :=
  match f.openingScene read? with
  | .error e => .error e
  | .ok scene =>
    match (f.play scene).run (Session.new f.sessionConfig) with
    | .ok r _ => r
    | .error fault _ => .error (.fault fault)

end Fixture

end BlockStage
