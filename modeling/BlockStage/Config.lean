/-
  Settings of a session, and single settings that override them.
-/
import BlockStage.Geometry.Canvas
import BlockStage.Json.Decode

namespace BlockStage

/-- Settings of the physics, in pixel space: the pull on all bodies, whether there is a ground slab
    below the canvas and a wall on either side, how thick they are, the least side of a body, and how
    close to the ground line counts as standing on it. -/
structure PhysicsConfig (α : Type) where
  gravity : Vec α
  ground : Bool
  walls : Bool
  thickness : α
  minBodySize : α
  groundTolerance : α

/-- Settings of a session. -/
structure Config where
  canvas : Canvas Float32
  physics : PhysicsConfig Float32
  frameTime : Float32
  cloneLimit : Nat
  logCapacity : Nat
  audioHistory : Nat
  seed : Option Nat

/-- Reads a pair of coordinates. -/
def Vec.decode : Decoder (Vec Float32) := fun room j =>
  (Decoder.pair Decoder.single room j).map fun p => ⟨p.1, p.2⟩

/-- A pair of coordinates as data. -/
def Vec.toJson (v : Vec Float32) : Json := .array [.finiteSingle v.x, .finiteSingle v.y]

namespace PhysicsConfig

/-- The settings when none are given. -/
def usual : PhysicsConfig Float32 := ⟨⟨0, 980⟩, true, false, 20, 32, 1.5⟩

/-- Reads settings. -/
def decode : Decoder (PhysicsConfig Float32) := fun room j => do
  let fs ← Fields.open?
    ["gravity", "ground", "walls", "thickness", "min_body_size", "ground_tolerance"] room j
  some
    { gravity := ← fs.withDefault "gravity" Vec.decode usual.gravity
      ground := ← fs.withDefault "ground" Decoder.bool usual.ground
      walls := ← fs.withDefault "walls" Decoder.bool usual.walls
      thickness := ← fs.withDefault "thickness" Decoder.single usual.thickness
      minBodySize := ← fs.withDefault "min_body_size" Decoder.single usual.minBodySize
      groundTolerance := ← fs.withDefault "ground_tolerance" Decoder.single usual.groundTolerance }

/-- The settings as data. -/
def toJson (p : PhysicsConfig Float32) : Json :=
  .record
    [("gravity", p.gravity.toJson),
      ("ground", .bool p.ground), ("walls", .bool p.walls),
      ("thickness", .finiteSingle p.thickness), ("min_body_size", .finiteSingle p.minBodySize),
      ("ground_tolerance", .finiteSingle p.groundTolerance)]

end PhysicsConfig

namespace Config

/-- The canvas when none is given. -/
def usualCanvas : Canvas Float32 := ⟨480, 360⟩

/-- The settings when none are given. -/
def usual : Config := ⟨usualCanvas, .usual, 1 / 60, 300, 200, 64, none⟩

/-- Reads the size of a canvas. -/
def decodeCanvas : Decoder (Canvas Float32) := fun room j => do
  let fs ← Fields.open? ["width", "height"] room j
  some
    { width := ← fs.withDefault "width" Decoder.single usualCanvas.width
      height := ← fs.withDefault "height" Decoder.single usualCanvas.height }

/-- Reads settings; every field may be left out. -/
def decode : Decoder Config := fun room j => do
  let fs ← Fields.open?
    ["canvas", "physics", "frame_dt", "clone_limit", "log_capacity", "audio_history", "random_seed"]
    room j
  some
    { canvas := ← fs.withDefault "canvas" decodeCanvas usual.canvas
      physics := ← fs.withDefault "physics" PhysicsConfig.decode usual.physics
      frameTime := ← fs.withDefault "frame_dt" Decoder.single usual.frameTime
      cloneLimit := ← fs.withDefault "clone_limit" Decoder.nat64 usual.cloneLimit
      logCapacity := ← fs.withDefault "log_capacity" Decoder.nat64 usual.logCapacity
      audioHistory := ← fs.withDefault "audio_history" Decoder.nat64 usual.audioHistory
      seed := ← fs.optional "random_seed" Decoder.nat64 }

/-- Reads the text of settings. -/
def parse? (text : String) : Option Config := decodeText? decode text

/-- The settings as data. -/
def toJson (c : Config) : Json :=
  .record
    [("canvas",
        .record [("width", .finiteSingle c.canvas.width), ("height", .finiteSingle c.canvas.height)]),
      ("physics", c.physics.toJson), ("frame_dt", .finiteSingle c.frameTime),
      ("clone_limit", .nat c.cloneLimit), ("log_capacity", .nat c.logCapacity),
      ("audio_history", .nat c.audioHistory), ("random_seed", Json.nullable Json.nat c.seed)]

end Config

/-! ## Overrides -/

/-- Settings that take the place of configured ones. -/
structure Overrides where
  width : Option Float32
  height : Option Float32
  cloneLimit : Option Nat
  seed : Option Nat

namespace Overrides

/-- No overrides. -/
def none : Overrides := ⟨.none, .none, .none, .none⟩

/-- Is nothing overridden? -/
def isEmpty (o : Overrides) : Bool :=
  o.width.isNone && o.height.isNone && o.cloneLimit.isNone && o.seed.isNone

/-- The names of the overridden settings. -/
def applied (o : Overrides) : List String :=
  (if o.width.isSome then ["width"] else []) ++ (if o.height.isSome then ["height"] else [])
    ++ (if o.cloneLimit.isSome then ["clone_limit"] else [])
    ++ (if o.seed.isSome then ["seed"] else [])

end Overrides

/-- The settings with the overrides in place. -/
def Config.override (c : Config) (o : Overrides) : Config :=
  { c with
    canvas := ⟨o.width.getD c.canvas.width, o.height.getD c.canvas.height⟩
    cloneLimit := o.cloneLimit.getD c.cloneLimit
    seed := o.seed.orElse fun _ => c.seed }

end BlockStage
