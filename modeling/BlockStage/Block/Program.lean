/-
  Block programs: a forest of blocks with fields, value inputs and statement bodies.

  The three maps of a block are lists sorted by key, so that two blocks with the same entries are
  equal and a walk visits inputs and bodies in the order of their keys.
-/
import BlockStage.Value

namespace BlockStage

/-- Puts an entry in its place in a list sorted by key, replacing one with the same key. -/
def insertSorted {β : Type} (k : String) (v : β) : List (String × β) → List (String × β)
  | [] => [(k, v)]
  | (k', v') :: rest =>
    if k = k' then (k, v) :: rest
    else if k < k' then (k, v) :: (k', v') :: rest
    else (k', v') :: insertSorted k v rest

/-- A list sorted by key; of entries with the same key the last stays. -/
def sortedByKey {β : Type} (l : List (String × β)) : List (String × β) :=
  l.foldl (fun acc e => insertSorted e.1 e.2 acc) []

/-- A map from texts, read from the members of an object. -/
def Decoder.map {β : Type} (d : Decoder β) : Decoder (List (String × β))
  | room + 1, .object members => do
    let all ← Decoder.named members
    let read ← all.mapM fun m => (d room m.2).map fun v => (m.1, v)
    some (sortedByKey read)
  | _, _ => none

/-- A block: its type, its fields, the blocks plugged into it and the bodies it encloses. -/
inductive Block where
  | mk (type : String) (fields : List (String × Value)) (inputs : List (String × Block))
      (statements : List (String × List Block))

namespace Block

/-- The type as written. -/
def type : Block → String
  | .mk t _ _ _ => t

/-- Literal fields. -/
def fields : Block → List (String × Value)
  | .mk _ f _ _ => f

/-- Blocks in value slots. -/
def inputs : Block → List (String × Block)
  | .mk _ _ i _ => i

/-- Enclosed bodies. -/
def statements : Block → List (String × List Block)
  | .mk _ _ _ s => s

/-- The text of a field, empty without the field. -/
def fieldText (b : Block) (name : String) : String :=
  match b.fields.lookup name with
  | some v => v.toText
  | none => ""

/-- The body in a slot, empty without one. -/
def body (b : Block) (slot : String) : List Block := (b.statements.lookup slot).getD []

mutual

/-- The types of a block and of every block in it: itself, then its inputs, then its bodies. -/
def types : Block → List String
  | .mk t _ i s => t :: (inputTypes i ++ bodyTypes s)

/-- The types in value slots. -/
def inputTypes : List (String × Block) → List String
  | [] => []
  | (_, b) :: rest => types b ++ inputTypes rest

/-- The types in bodies. -/
def bodyTypes : List (String × List Block) → List String
  | [] => []
  | (_, l) :: rest => listTypes l ++ bodyTypes rest

/-- The types in a list. -/
def listTypes : List Block → List String
  | [] => []
  | b :: rest => types b ++ listTypes rest

end

/-! ## As data -/

/-- The fields of a block as data. -/
def fieldNames : List String := ["type", "fields", "inputs", "statements"]

/-- Reads a block.  Blocks inside have less room for nesting, which bounds the recursion. -/
def decode (room : Nat) (j : Json) : Option Block := do
  let fs ← Fields.open? fieldNames room j
  let inner : Decoder Block := fun r b => if _h : r < room then decode r b else none
  some (.mk (← fs.required "type" Decoder.text)
    (← fs.withDefault "fields" (Decoder.map Value.decode) [])
    (← fs.withDefault "inputs" (Decoder.map inner) [])
    (← fs.withDefault "statements" (Decoder.map (Decoder.list inner)) []))
termination_by room

/-- A member that is left out when empty. -/
def unlessEmpty (name : String) (members : List (String × Json)) : List (String × Json) :=
  if members.isEmpty then [] else [(name, .record members)]

mutual

/-- The block as data; empty maps are left out. -/
def toJson : Block → Json
  | .mk t f i s =>
    .record
      (("type", .str t)
        :: (unlessEmpty "fields" (f.map fun e => (e.1, e.2.toJson))
          ++ unlessEmpty "inputs" (inputsToJson i)
          ++ unlessEmpty "statements" (bodiesToJson s)))

/-- Value slots as data. -/
def inputsToJson : List (String × Block) → List (String × Json)
  | [] => []
  | (k, b) :: rest => (k, toJson b) :: inputsToJson rest

/-- Bodies as data. -/
def bodiesToJson : List (String × List Block) → List (String × Json)
  | [] => []
  | (k, l) :: rest => (k, .array (listToJson l)) :: bodiesToJson rest

/-- A list of blocks as data. -/
def listToJson : List Block → List Json
  | [] => []
  | b :: rest => toJson b :: listToJson rest

end

end Block

/-- A program: top-level blocks in order. -/
abbrev Program := List Block

namespace Program

/-- Reads a program. -/
def decode : Decoder Program := Decoder.list Block.decode

/-- Reads the text of a program. -/
def parse? (text : String) : Option Program := decodeText? decode text

/-- The program as data. -/
def toJson (p : Program) : Json := .array (Block.listToJson p)

/-- The types of all blocks in the order of a walk. -/
def types (p : Program) : List String := Block.listTypes p

end Program

end BlockStage
