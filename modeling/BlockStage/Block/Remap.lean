/-
  Renaming what a program refers to.

  When a program is copied into another project, its references get new ids.  A table per kind of
  reference says which.  The reference field of each known block is looked up once, so renaming is
  simultaneous: a table that swaps two ids swaps them.  Reserved tokens, ids outside the tables and
  costumes keep their text.
-/
import BlockStage.Block.Kind
import BlockStage.Block.Program
import BlockStage.Block.Target
import BlockStage.Table

namespace BlockStage

/-- New ids for old ones, by kind of reference. -/
structure RemapTables where
  entities : Table String String
  variableNames : Table String String
  sounds : Table String String
  components : Table String String

namespace RemapTables

/-- Is there nothing to rename? -/
def isEmpty (t : RemapTables) : Bool :=
  t.entities.isEmpty && t.variableNames.isEmpty && t.sounds.isEmpty && t.components.isEmpty

/-- The new text of a reference, if the tables have one. -/
def rename? (t : RemapTables) (kind : ReferenceKind) (literal : String) : Option String :=
  if Token.isReserved literal then none
  else
    match kind with
    | .entity => t.entities.get? literal
    | .sensingTarget =>
      match Token.afterComponent? literal with
      | some name => (t.components.get? name).map fun new => Token.component ++ new
      | none => t.entities.get? literal
    | .variable => t.variableNames.get? literal
    | .sound => t.sounds.get? literal
    | .costume => none

/-- The fields of a block of the given type after renaming, and how many changed. -/
def remapFields (t : RemapTables) (type : String) (fields : List (String × Value)) :
    List (String × Value) × Nat :=
  match (BlockKind.parse? type).bind referenceField? with
  | none => (fields, 0)
  | some entry =>
    match fields.lookup entry.field with
    | none => (fields, 0)
    | some current =>
      let literal := current.toText
      match t.rename? entry.kind literal with
      | some mapped =>
        if mapped = literal then (fields, 0)
        else (insertSorted entry.field (.text mapped) fields, 1)
      | none => (fields, 0)

mutual

/-- A block after renaming, and how many fields changed. -/
def remapBlock (t : RemapTables) : Block → Block × Nat
  | .mk type fields inputs bodies =>
    let f := t.remapFields type fields
    let i := t.remapInputs inputs
    let b := t.remapBodies bodies
    (.mk type f.1 i.1 b.1, f.2 + i.2 + b.2)

/-- Value slots after renaming. -/
def remapInputs (t : RemapTables) : List (String × Block) → List (String × Block) × Nat
  | [] => ([], 0)
  | (k, b) :: rest =>
    let b := t.remapBlock b
    let r := t.remapInputs rest
    ((k, b.1) :: r.1, b.2 + r.2)

/-- Bodies after renaming. -/
def remapBodies (t : RemapTables) :
    List (String × List Block) → List (String × List Block) × Nat
  | [] => ([], 0)
  | (k, l) :: rest =>
    let l := t.remapList l
    let r := t.remapBodies rest
    ((k, l.1) :: r.1, l.2 + r.2)

/-- A list of blocks after renaming. -/
def remapList (t : RemapTables) : List Block → List Block × Nat
  | [] => ([], 0)
  | b :: rest =>
    let b := t.remapBlock b
    let r := t.remapList rest
    (b.1 :: r.1, b.2 + r.2)

end

end RemapTables

/-- The program with its references renamed, and the number of fields that changed. -/
def Program.remap (p : Program) (t : RemapTables) : Program × Nat :=
  if t.isEmpty then (p, 0) else t.remapList p

end BlockStage
