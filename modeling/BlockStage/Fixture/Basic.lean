/-
  Fixtures: a scene, a number of steps, and the inputs to give before some of them.

  An input is one object that holds both its step and the fields of its kind, and other members that
  nobody asks for.  Those are still read as data, so they must have values.
-/
import BlockStage.Config
import BlockStage.Scene

namespace BlockStage

/-- What a host can do between two updates. -/
inductive HostInput where
  | keyDown (key : String)
  | keyUp (key : String)
  | pointerMove (p : Vec Float32)
  | pointerDown (p : Vec Float32)
  | pointerUp
  | broadcast (message : String)
  | completeSound (handle : Nat)
  | stop

/-- An input and the step before which it is given. -/
structure ScriptedInput where
  step : Nat
  input : HostInput

/-- A scripted play.  Its scene is given in place or, failing that, by the path of a file; other
    scenes can be switched to by name. -/
structure Fixture where
  scene : Option Scene
  scenePath : Option String
  scenes : Table String Scene
  steps : Nat
  frameTime : Float32
  seed : Nat
  config : Option Config
  inputs : List ScriptedInput

namespace ScriptedInput

/-- The kinds of input, without what they carry. -/
inductive Kind where
  | keyDown | keyUp | pointerMove | pointerDown | pointerUp | broadcast | completeSound | stop
deriving Repr, DecidableEq

namespace Kind

/-- The words for the kinds, in order. -/
def words : List (String × Kind) :=
  [ ("key_down", .keyDown), ("key_up", .keyUp), ("pointer_move", .pointerMove),
    ("pointer_down", .pointerDown), ("pointer_up", .pointerUp), ("broadcast", .broadcast),
    ("complete_sound", .completeSound), ("stop", .stop) ]

/-- Reads a kind: its word, or its place among the words. -/
def decode : Decoder Kind
  | _, .text (some s) => words.lookup s
  | _, .number (.integer i) => if 0 ≤ i then (words[i.toNat]?).map Prod.snd else none
  | _, _ => none

/-- The fields that belong to a kind. -/
def fieldNames : Kind → List String
  | .keyDown => ["key"]
  | .keyUp => ["key"]
  | .pointerMove => ["x", "y"]
  | .pointerDown => ["x", "y"]
  | .broadcast => ["message"]
  | .completeSound => ["handle"]
  | _ => []

/-- Reads what an input of a kind carries. -/
def input? (k : Kind) (fs : Fields) : Option HostInput := do
  match k with
  | .keyDown => some (.keyDown (← fs.required "key" Decoder.text))
  | .keyUp => some (.keyUp (← fs.required "key" Decoder.text))
  | .pointerMove =>
    some (.pointerMove ⟨← fs.required "x" Decoder.single, ← fs.required "y" Decoder.single⟩)
  | .pointerDown =>
    some (.pointerDown ⟨← fs.required "x" Decoder.single, ← fs.required "y" Decoder.single⟩)
  | .pointerUp => some .pointerUp
  | .broadcast => some (.broadcast (← fs.required "message" Decoder.text))
  | .completeSound => some (.completeSound (← fs.required "handle" Decoder.nat64))
  | .stop => some .stop

end Kind

/-- The only member of a name. -/
def single? (name : String) (members : List (String × Json)) : Option Json :=
  match members.filter fun m => m.1 == name with
  | [m] => some m.2
  | _ => none

/-- Reads an input. -/
def decode : Decoder ScriptedInput
  | room + 1, .object members => do
    let all ← Decoder.named members
    let step ← Decoder.nat64 room (← single? "step" all)
    let others := all.filter fun m => m.1 != "step"
    if others.all fun m => Decoder.readable room m.2 then
      let kind ← Kind.decode room (← single? "kind" others)
      let fs ← Fields.open? kind.fieldNames (room + 1)
        (.object ((others.filter fun m => m.1 != "kind").map fun m => (some m.1, m.2)))
      some ⟨step, ← kind.input? fs⟩
    else none
  | _, _ => none

end ScriptedInput

namespace Fixture

/-- The fields of a fixture as data. -/
def fieldNames : List String :=
  ["scene", "scene_path", "scenes", "steps", "dt", "seed", "config", "inputs"]

/-- Reads a fixture: 60 steps of a sixtieth of a second under seed 1, unless it says otherwise. -/
def decode : Decoder Fixture := fun room j => do
  let fs ← Fields.open? fieldNames room j
  some
    { scene := ← fs.optional "scene" Scene.decode
      scenePath := ← fs.optional "scene_path" Decoder.text
      scenes := ← fs.withDefault "scenes"
        (fun room j => (Decoder.map Scene.decode room j).map Table.mk) .empty
      steps := ← fs.withDefault "steps" Decoder.nat64 60
      frameTime := ← fs.withDefault "dt" Decoder.single (1 / 60)
      seed := ← fs.withDefault "seed" Decoder.nat64 1
      config := ← fs.optional "config" Config.decode
      inputs := ← fs.withDefault "inputs" (Decoder.list ScriptedInput.decode) [] }

/-- Reads the text of a fixture. -/
def parse? (text : String) : Option Fixture := decodeText? decode text

end Fixture

end BlockStage
