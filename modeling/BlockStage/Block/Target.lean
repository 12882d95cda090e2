/-
  What a block senses: an entity, a component group, or a part of the world.

  A target is written as a token.  Reserved tokens, wrapped in underscores, name the world's parts;
  `component:` in front names a group; everything else is an entity's id.
-/
import BlockStage.Text.Blank
import BlockStage.Key

namespace BlockStage

/-! ## The reserved tokens and the mark of a group -/

namespace Token

/-- The border of the canvas. -/
def edge : String := "_edge_"
/-- The ground line. -/
def ground : String := "_ground_"
/-- The pointer. -/
def pointer : String := "_pointer_"
/-- An older spelling of the pointer. -/
def mouse : String := "_mouse_"
/-- The clones of the sensing entity's prototype. -/
def myClones : String := "_my_clones_"
/-- The entity itself. -/
def myself : String := "_myself_"
/-- What stands in front of the name of a group. -/
def component : String := "component:"

/-- Tokens that are never renamed. -/
def isReserved (raw : String) : Bool :=
  ["", edge, ground, pointer, mouse, myClones, myself].contains (trimText raw)

/-- The text after `component:`, if the text begins so. -/
def afterComponent? (s : String) : Option String :=
  (Key.after? component.toList s.toList).map String.ofList

end Token

/-- What a block senses. -/
inductive Target where
  | entity (id : String)
  | component (name : String)
  | edge
  | ground
  | pointer
  | myClones
deriving Repr, DecidableEq

namespace Target

/-- Reads a token; blank text is no target, nor is a group without a name. -/
def parse? (raw : String) : Option Target :=
  let text := trimText raw
  if text = "" then none
  else if text = Token.edge then some .edge
  else if text = Token.ground then some .ground
  else if text = Token.pointer || text = Token.mouse then some .pointer
  else if text = Token.myClones then some .myClones
  else
    match Token.afterComponent? text with
    | some name => if name = "" then none else some (.component name)
    | none => some (.entity text)

/-- The token of a target. -/
def token : Target → String
  | .entity id => id
  | .component name => Token.component ++ name
  | .edge => Token.edge
  | .ground => Token.ground
  | .pointer => Token.pointer
  | .myClones => Token.myClones

/-- Does the target name other entities rather than the world? -/
def namesEntities : Target → Bool
  | .entity _ => true
  | .component _ => true
  | .myClones => true
  | _ => false

example : parse? " component:coin" = some (.component "coin") := by decide +kernel
example : parse? "component:" = none := by decide +kernel

end Target

end BlockStage
