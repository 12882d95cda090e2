/-
  The command line: plays a scene without a window for a number of frames, then prints the journal
  and where each entity ended.

  Reading files and printing happen here and nowhere else.  A scene that a script asks for is looked
  up beside the first one.  A bad command line ends with code 2, any other failure with code 1.
-/
import BlockStage.Fixture.Record
import BlockStage.Options
import BlockStage.Session.Lifecycle

namespace BlockStage

namespace CommandLine

/-- Where the settings are looked for when no path is given. -/
def usualConfigPath : String := "config/runtime.json"

/-- The number of frames when none is asked for. -/
def usualFrames : Nat := 120

/-- The path of the scene with the given name beside another file. -/
def siblingPath (path name : String) : String :=
  let folder := (path.splitOn "/").dropLast
  String.intercalate "/" (folder ++ [name ++ ".json"])

/-- The text of a file, if it can be read. -/
def readText? (path : String) : IO (Option String) := do
  try return some (← IO.FS.readFile path)
  catch _ => return none

/-- The settings at a path, or the usual ones when there are none. -/
def loadConfig (path : String) : IO Config := do
  match (← readText? path).bind Config.parse? with
  | some c => return c
  | none =>
    IO.eprintln ("Config load error: " ++ path ++ ". Falling back to defaults.")
    return .usual

/-- The scene at a path. -/
def loadScene (path : String) : IO Scene := do
  match ← readText? path with
  | none => throw (IO.userError ("Reading scene file " ++ path))
  | some text =>
    match Scene.parse? text with
    | some scene => return scene
    | none => throw (IO.userError ("Parsing scene file " ++ path))

/-- Takes a step of a session. -/
def advance {α : Type} (s : Session) (p : Play α) : IO (α × Session) :=
  match p.run s with
  | .ok a s => return (a, s)
  | .error _ _ => throw (IO.userError "the session broke off")

/-- Loads a scene into a session and starts it. -/
def enter (s : Session) (scene : Scene) : IO Session := do
  match s.loadScene scene with
  | (.error e, _) => throw (IO.userError e.message)
  | (.ok _, s) => return (← advance s Play.start).2

/-- Goes over to the scene that a script has asked for. -/
def followScene (path : String) (s : Session) : IO Session :=
  match s.pendingScene with
  | none => return s
  | some name => do
    let scene ← loadScene (siblingPath path name)
    enter { s with pendingScene := none } scene

/-- Plays so many frames, or fewer when the session stops. -/
def playFrames (path : String) : Nat → Session → IO Session
  | 0, s => return s
  | n + 1, s => do
    let (_, s) ← advance s Play.update
    let s ← followScene path s
    if s.running then playFrames path n s else return s

/-- Plays what the options ask for and prints what came of it. -/
def play (o : Options) : IO Unit := do
  let config ← loadConfig (o.config.getD usualConfigPath)
  if !o.overrides.isEmpty then
    IO.eprintln ("CLI overrides applied: " ++ String.intercalate ", " o.overrides.applied)
  match o.scene with
  | none => throw (IO.userError "--scene <path> is required")
  | some path =>
    let s ← enter (Session.new (config.override o.overrides)) (← loadScene path)
    let s ← playFrames path (o.frames.getD usualFrames) s
    s.journal.lines.forM IO.println
    s.stage.snapshots.forM fun e => IO.println e.toJson.render

end CommandLine

end BlockStage

/-- Reads the options and plays; the answer is the exit code. -/
def main (arguments : List String) : IO UInt32 := do
  match BlockStage.Options.none.ofArguments arguments with
  | .error e =>
    IO.eprintln ("[cli] " ++ e.message)
    return 2
  | .ok o =>
    try
      BlockStage.CommandLine.play o
      return 0
    catch e =>
      IO.eprintln ("Application error: " ++ toString e)
      return 1
