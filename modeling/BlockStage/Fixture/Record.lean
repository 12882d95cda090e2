/-
  Records: what came of a fixture, step by step.

  A record can be saved, read back and compared with another.  A comparison looks at the header, the
  startup lines, the steps that both records have, and the final entities, and names the first part
  that departs.  Numbers are compared as numbers, so not-a-number departs from itself.
-/
import BlockStage.Decimal.Fixed
import BlockStage.Stage.Roster

namespace BlockStage

namespace Snapshot

/-- The snapshot as data; what is absent is left out. -/
def toJson (s : Snapshot Float32) : Json :=
  .record
    ([("id", .str s.id), ("x", .finiteSingle s.x), ("y", .finiteSingle s.y),
        ("rotation", .finiteSingle s.rotation), ("scale", s.scale.toJson),
        ("visible", .bool s.visible), ("depth", .int s.depth)]
      ++ Json.optional "costume" Json.str s.costume
      ++ Json.optional "parent" Json.str s.parent
      ++ Json.optional "original" Json.str s.prototype
      ++ [("stopped", .bool s.stopped), ("has_body", .bool s.hasBody)])

/-- The fields of a snapshot as data. -/
def fieldNames : List String :=
  [ "id", "x", "y", "rotation", "scale", "visible", "depth", "costume", "parent", "original",
    "stopped", "has_body" ]

/-- Reads a snapshot. -/
def decode : Decoder (Snapshot Float32) := fun room j => do
  let fs ← Fields.open? fieldNames room j
  some
    { id := ← fs.required "id" Decoder.text
      x := ← fs.required "x" Decoder.single
      y := ← fs.required "y" Decoder.single
      rotation := ← fs.required "rotation" Decoder.single
      scale := ← fs.required "scale" Vec.decode
      visible := ← fs.required "visible" Decoder.bool
      depth := ← fs.required "depth" Decoder.int32
      costume := ← fs.optional "costume" Decoder.text
      parent := ← fs.optional "parent" Decoder.text
      prototype := ← fs.optional "original" Decoder.text
      stopped := ← fs.required "stopped" Decoder.bool
      hasBody := ← fs.required "has_body" Decoder.bool }

/-- Are two snapshots equal, their numbers as numbers? -/
def equals (a b : Snapshot Float32) : Bool :=
  a.id == b.id && a.x == b.x && a.y == b.y && a.rotation == b.rotation
    && a.scale.x == b.scale.x && a.scale.y == b.scale.y && a.visible == b.visible
    && a.depth == b.depth && a.costume == b.costume && a.parent == b.parent
    && a.prototype == b.prototype && a.stopped == b.stopped && a.hasBody == b.hasBody

end Snapshot

/-- What came of one step: the journal lines with the number of errors among them, the events, the
    sounds to play, the clicked entity and the scene that was switched to. -/
structure StepRecord where
  step : Nat
  lines : List String
  errors : Nat
  events : List String
  sounds : List String
  clicked : Option String
  sceneSwitch : Option String
deriving Repr, DecidableEq

namespace StepRecord

/-- A list that is left out when empty. -/
def unlessEmpty (name : String) (l : List String) : List (String × Json) :=
  if l.isEmpty then [] else [(name, .texts l)]

/-- The record as data; nought, nothing and empty lists are left out. -/
def toJson (r : StepRecord) : Json :=
  .record
    ([("step", .nat r.step), ("logs", .texts r.lines)]
      ++ (if r.errors = 0 then [] else [("errors", .nat r.errors)])
      ++ unlessEmpty "events" r.events
      ++ unlessEmpty "sounds" r.sounds
      ++ Json.optional "clicked" Json.str r.clicked
      ++ Json.optional "scene_switch" Json.str r.sceneSwitch)

/-- The fields of a step as data. -/
def fieldNames : List String :=
  ["step", "logs", "errors", "events", "sounds", "clicked", "scene_switch"]

/-- Reads a step. -/
def decode : Decoder StepRecord := fun room j => do
  let fs ← Fields.open? fieldNames room j
  some
    { step := ← fs.required "step" Decoder.nat64
      lines := ← fs.required "logs" (Decoder.list Decoder.text)
      errors := ← fs.withDefault "errors" Decoder.nat64 0
      events := ← fs.withDefault "events" (Decoder.list Decoder.text) []
      sounds := ← fs.withDefault "sounds" (Decoder.list Decoder.text) []
      clicked := ← fs.optional "clicked" Decoder.text
      sceneSwitch := ← fs.optional "scene_switch" Decoder.text }

/-- What the summary says about a step, part by part. -/
def parts (r : StepRecord) : List String :=
  (if r.lines.isEmpty then []
    else [toString r.lines.length ++ " logs (" ++ toString r.errors ++ " errors)"])
    ++ (if r.sounds.isEmpty then [] else [toString r.sounds.length ++ " sounds"])
    ++ (match r.clicked with
      | some id => ["clicked " ++ id]
      | none => [])
    ++ match r.sceneSwitch with
      | some name => ["switched to " ++ name]
      | none => []

/-- The line of the summary for a step that has something to say. -/
def summary? (r : StepRecord) : Option String :=
  if r.parts.isEmpty then none
  else some ("step " ++ padLeft 4 (toString r.step) ++ ": " ++ String.intercalate ", " r.parts)

end StepRecord

/-- What came of a fixture. -/
structure Record where
  scene : String
  steps : Nat
  frameTime : Float32
  startup : List String
  results : List StepRecord
  finalEntities : List (Snapshot Float32)

/-- The first part in which two records differ. -/
inductive Difference where
  | header
  | startup
  | step (n : Nat)
  | finalEntities
deriving Repr, DecidableEq

/-- The name of a part. -/
def Difference.label : Difference → String
  | .header => "header"
  | .startup => "startup log"
  | .step n => "step " ++ toString n
  | .finalEntities => "final entities"

namespace Record

/-- The record as data. -/
def toJson (r : Record) : Json :=
  .record
    [("scene", .str r.scene), ("steps", .nat r.steps), ("dt", .finiteSingle r.frameTime),
      ("startup", .texts r.startup), ("results", .array (r.results.map StepRecord.toJson)),
      ("final_entities", .array (r.finalEntities.map Snapshot.toJson))]

/-- The fields of a record as data. -/
def fieldNames : List String :=
  ["scene", "steps", "dt", "startup", "results", "final_entities"]

/-- Reads a record. -/
def decode : Decoder Record := fun room j => do
  let fs ← Fields.open? fieldNames room j
  some
    { scene := ← fs.required "scene" Decoder.text
      steps := ← fs.required "steps" Decoder.nat64
      frameTime := ← fs.required "dt" Decoder.single
      startup := ← fs.required "startup" (Decoder.list Decoder.text)
      results := ← fs.required "results" (Decoder.list StepRecord.decode)
      finalEntities := ← fs.required "final_entities" (Decoder.list Snapshot.decode) }

/-- The record as text. -/
def render (r : Record) : String := r.toJson.render

/-- Reads the text of a record. -/
def parse? (text : String) : Option Record := decodeText? decode text

/-- The line of the summary for a final entity. -/
def entityLine (s : Snapshot Float32) : String :=
  "  " ++ s.id ++ " at (" ++ fixedText 1 (widen s.x) ++ ", " ++ fixedText 1 (widen s.y)
    ++ ") facing " ++ fixedText 1 (widen s.rotation) ++ if s.stopped then " [stopped]" else ""

/-- The number of errors in all steps. -/
def errors (r : Record) : Nat := r.results.foldl (fun n s => n + s.errors) 0

/-- A summary: the header, the steps that have something to say, the totals and the final
    entities. -/
def summary (r : Record) : List String :=
  ["scene '" ++ r.scene ++ "': " ++ toString r.steps ++ " steps at dt "
      ++ fixedText 4 (widen r.frameTime)]
    ++ r.results.filterMap StepRecord.summary?
    ++ [toString r.finalEntities.length ++ " entities live, "
        ++ toString r.errors ++ " errors"]
    ++ r.finalEntities.map entityLine

/-- Are two lists of snapshots equal? -/
def equalEntities : List (Snapshot Float32) → List (Snapshot Float32) → Bool
  | [], [] => true
  | a :: as, b :: bs => a.equals b && equalEntities as bs
  | _, _ => false

/-- The first part in which a record departs from an expected one.  Steps that only one of them has
    are not compared. -/
def firstDifference? (r expected : Record) : Option Difference :=
  if r.scene != expected.scene || r.steps != expected.steps || r.frameTime != expected.frameTime then
    some .header
  else if r.startup != expected.startup then some .startup
  else
    match (r.results.zip expected.results).find? fun p => p.1 != p.2 with
    | some p => some (.step p.2.step)
    | none =>
      if equalEntities r.finalEntities expected.finalEntities then none else some .finalEntities

end Record

end BlockStage
