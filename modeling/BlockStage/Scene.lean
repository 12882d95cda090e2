/-
  Scenes: the variables, costumes, sounds and entities of one playable scene.

  Costumes and body settings are written over a type of scalars, as the stage is; a scene that is
  read from text has four-byte floats.
-/
import BlockStage.Block.Program
import BlockStage.Geometry.Vec
import BlockStage.Sound
import BlockStage.Variable

namespace BlockStage

/-! ## Costumes -/

/-- The visible rectangle of an image, in image pixels from the top-left corner. -/
structure PixelBounds (α : Type) where
  x : α
  y : α
  width : α
  height : α
deriving Repr

/-- An image that an entity can wear. -/
structure Costume (α : Type) where
  id : String
  name : String
  image : String
  width : α
  height : α
  bounds : Option (PixelBounds α)
deriving Repr

namespace Costume

variable {α : Type} [Scalar α]

/-- The size of the visible rectangle; the whole image without one. -/
def visibleSize (c : Costume α) : Vec α :=
  match c.bounds with
  | some b => ⟨b.width, b.height⟩
  | none => ⟨c.width, c.height⟩

/-- From the middle of the image to the middle of the visible rectangle. -/
def visibleOffset (c : Costume α) : Vec α :=
  match c.bounds with
  | some b =>
    ⟨b.x + b.width * Scalar.half - c.width * Scalar.half,
      b.y + b.height * Scalar.half - c.height * Scalar.half⟩
  | none => Vec.zero

end Costume

namespace PixelBounds

/-- Reads a rectangle. -/
def decode : Decoder (PixelBounds Float32) := fun room j => do
  let fs ← Fields.open? ["x", "y", "width", "height"] room j
  some
    { x := ← fs.required "x" Decoder.single
      y := ← fs.required "y" Decoder.single
      width := ← fs.required "width" Decoder.single
      height := ← fs.required "height" Decoder.single }

/-- The rectangle as data. -/
def toJson (b : PixelBounds Float32) : Json :=
  .record
    [("x", .finiteSingle b.x), ("y", .finiteSingle b.y), ("width", .finiteSingle b.width),
      ("height", .finiteSingle b.height)]

end PixelBounds

namespace Costume

/-- Reads a costume; sides are 64 unless given. -/
def decode : Decoder (Costume Float32) := fun room j => do
  let fs ← Fields.open? ["id", "name", "image", "width", "height", "bounds"] room j
  some
    { id := ← fs.required "id" Decoder.text
      name := ← fs.withDefault "name" Decoder.text ""
      image := ← fs.withDefault "image" Decoder.text ""
      width := ← fs.withDefault "width" Decoder.single 64
      height := ← fs.withDefault "height" Decoder.single 64
      bounds := ← fs.optional "bounds" PixelBounds.decode }

/-- The costume as data. -/
def toJson (c : Costume Float32) : Json :=
  .record
    ([("id", .str c.id), ("name", .str c.name), ("image", .str c.image),
        ("width", .finiteSingle c.width), ("height", .finiteSingle c.height)]
      ++ Json.optional "bounds" PixelBounds.toJson c.bounds)

end Costume

/-! ## Bodies -/

/-- How an entity takes part in physics.  Without world gravity it feels the same pull as a force
    of its own. -/
structure BodySettings (α : Type) where
  gravityScale : α
  useWorldGravity : Bool
  fixedRotation : Bool
  restitution : α
  friction : α
deriving Repr

namespace BodySettings

/-- The settings when none are given. -/
def usual {α : Type} [Scalar α] : BodySettings α :=
  ⟨Scalar.one, true, true, Scalar.ratio 1 10, Scalar.ratio 6 10⟩

/-- Reads settings. -/
def decode : Decoder (BodySettings Float32) := fun room j => do
  let fs ← Fields.open?
    ["gravity_scale", "use_world_gravity", "fixed_rotation", "restitution", "friction"] room j
  let d : BodySettings Float32 := usual
  some
    { gravityScale := ← fs.withDefault "gravity_scale" Decoder.single d.gravityScale
      useWorldGravity := ← fs.withDefault "use_world_gravity" Decoder.bool d.useWorldGravity
      fixedRotation := ← fs.withDefault "fixed_rotation" Decoder.bool d.fixedRotation
      restitution := ← fs.withDefault "restitution" Decoder.single d.restitution
      friction := ← fs.withDefault "friction" Decoder.single d.friction }

/-- The settings as data. -/
def toJson (b : BodySettings Float32) : Json :=
  .record
    [("gravity_scale", .finiteSingle b.gravityScale), ("use_world_gravity", .bool b.useWorldGravity),
      ("fixed_rotation", .bool b.fixedRotation), ("restitution", .finiteSingle b.restitution),
      ("friction", .finiteSingle b.friction)]

end BodySettings

/-! ## Entities -/

/-- One object of a scene, placed in user space. -/
structure EntityDescription where
  id : String
  name : Option String
  x : Float32
  y : Float32
  rotation : Float32
  scale : Float32
  visible : Bool
  depth : Int
  size : Option (Float32 × Float32)
  costumes : List String
  costume : Nat
  component : Option String
  physics : Option (BodySettings Float32)
  program : Program

namespace EntityDescription

/-- The fields of an entity as data. -/
def fieldNames : List String :=
  [ "id", "name", "x", "y", "rotation", "scale", "visible", "depth", "size", "costumes", "costume",
    "component", "physics", "program" ]

/-- Reads an entity. -/
def decode : Decoder EntityDescription := fun room j => do
  let fs ← Fields.open? fieldNames room j
  some
    { id := ← fs.required "id" Decoder.text
      name := ← fs.optional "name" Decoder.text
      x := ← fs.withDefault "x" Decoder.single 0
      y := ← fs.withDefault "y" Decoder.single 0
      rotation := ← fs.withDefault "rotation" Decoder.single 0
      scale := ← fs.withDefault "scale" Decoder.single 1
      visible := ← fs.withDefault "visible" Decoder.bool true
      depth := ← fs.withDefault "depth" Decoder.int32 0
      size := ← fs.optional "size" (Decoder.pair Decoder.single)
      costumes := ← fs.withDefault "costumes" (Decoder.list Decoder.text) []
      costume := ← fs.withDefault "costume" Decoder.nat64 0
      component := ← fs.optional "component" Decoder.text
      physics := ← fs.optional "physics" BodySettings.decode
      program := ← fs.withDefault "program" Program.decode [] }

/-- The entity as data. -/
def toJson (e : EntityDescription) : Json :=
  .record
    ([("id", .str e.id)]
      ++ Json.optional "name" Json.str e.name
      ++ [("x", .finiteSingle e.x), ("y", .finiteSingle e.y),
        ("rotation", .finiteSingle e.rotation), ("scale", .finiteSingle e.scale),
        ("visible", .bool e.visible), ("depth", .int e.depth)]
      ++ Json.optional "size"
        (fun p => .array [.finiteSingle p.1, .finiteSingle p.2]) e.size
      ++ [("costumes", .texts e.costumes), ("costume", .nat e.costume)]
      ++ Json.optional "component" Json.str e.component
      ++ Json.optional "physics" BodySettings.toJson e.physics
      ++ [("program", Program.toJson e.program)])

end EntityDescription

/-! ## Scenes -/

/-- Everything a session needs to play a scene. -/
structure Scene where
  name : String
  definitions : List VariableDefinition
  costumes : List (Costume Float32)
  sounds : List Sound
  entities : List EntityDescription

namespace Scene

/-- The fields of a scene as data. -/
def fieldNames : List String := ["name", "variables", "costumes", "sounds", "entities"]

/-- Reads a scene; every field may be left out. -/
def decode : Decoder Scene := fun room j => do
  let fs ← Fields.open? fieldNames room j
  some
    { name := ← fs.withDefault "name" Decoder.text ""
      definitions := ← fs.withDefault "variables" (Decoder.list VariableDefinition.decode) []
      costumes := ← fs.withDefault "costumes" (Decoder.list Costume.decode) []
      sounds := ← fs.withDefault "sounds" (Decoder.list Sound.decode) []
      entities := ← fs.withDefault "entities" (Decoder.list EntityDescription.decode) [] }

/-- Reads the text of a scene. -/
def parse? (text : String) : Option Scene := decodeText? decode text

/-- The scene as data. -/
def toJson (s : Scene) : Json :=
  .record
    [("name", .str s.name), ("variables", .array (s.definitions.map VariableDefinition.toJson)),
      ("costumes", .array (s.costumes.map Costume.toJson)),
      ("sounds", .array (s.sounds.map Sound.toJson)),
      ("entities", .array (s.entities.map EntityDescription.toJson))]

/-- The first costume with an id. -/
def costume? (s : Scene) (id : String) : Option (Costume Float32) :=
  s.costumes.find? fun c => c.id == id

end Scene

end BlockStage
