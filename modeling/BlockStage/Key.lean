/-
  Keys and the state of the input devices.

  A key has one identity however it is spelled: by the names of a block's menu (`up arrow`, `a`),
  by those of a host (`ArrowUp`, `KeyA`) or by itself.  Reading trims and lower-cases, tries the
  named keys, then strips `key` or `digit` from in front of a single character.
-/
import BlockStage.Text.Blank
import BlockStage.Text.Lowercase
import BlockStage.Geometry.Vec

namespace BlockStage

/-- Keys with a name of their own. -/
inductive NamedKey where
  | space | enter | escape | shift | control | up | down | left | right
deriving Repr, DecidableEq

namespace NamedKey

/-- The display name. -/
def label : NamedKey → String
  | .space => "space"
  | .enter => "enter"
  | .escape => "escape"
  | .shift => "shift"
  | .control => "control"
  | .up => "up"
  | .down => "down"
  | .left => "left"
  | .right => "right"

/-- The accepted spellings, in lower case. -/
def spellings : List (String × NamedKey) :=
  [ ("space", .space), (" ", .space), ("spacebar", .space),
    ("enter", .enter), ("return", .enter),
    ("escape", .escape), ("esc", .escape),
    ("shift", .shift), ("left_shift", .shift), ("right_shift", .shift),
    ("shiftleft", .shift), ("shiftright", .shift),
    ("ctrl", .control), ("control", .control), ("left_ctrl", .control), ("right_ctrl", .control),
    ("controlleft", .control), ("controlright", .control),
    ("up", .up), ("arrowup", .up), ("up arrow", .up), ("up_arrow", .up),
    ("down", .down), ("arrowdown", .down), ("down arrow", .down), ("down_arrow", .down),
    ("left", .left), ("arrowleft", .left), ("left arrow", .left), ("left_arrow", .left),
    ("right", .right), ("arrowright", .right), ("right arrow", .right), ("right_arrow", .right) ]

end NamedKey

/-- The identity of a key; `any` stands for all of them. -/
inductive Key where
  | named (key : NamedKey)
  | character (text : String)
  | any
deriving Repr, DecidableEq

namespace Key

/-- The text after a leading word, if it is there. -/
def after? (word cs : List Char) : Option (List Char) :=
  if word.isPrefixOf cs then some (cs.drop word.length) else none

/-- A single character, also behind `key` or `digit`. -/
def single? (cs : List Char) : Option (List Char) :=
  let rest :=
    match after? "key".toList cs with
    | some r => some r
    | none => after? "digit".toList cs
  let chosen :=
    match rest with
    | some r => if r.length = 1 then r else cs
    | none => cs
  if chosen.length = 1 then some chosen else none

/-- Reads a key. -/
def parse? (raw : String) : Option Key :=
  if raw = " " then some (.named .space)
  else
    let text := lowercase (trimText raw)
    if text = "" then none
    else if text = "any" then some .any
    else
      match NamedKey.spellings.lookup text with
      | some key => some (.named key)
      | none => (single? text.toList).map fun cs => .character (String.ofList cs)

/-- Does a hat that waits for this key react to the pressed one? -/
def accepts (wanted pressed : Key) : Bool := wanted == .any || wanted == pressed

/-- The display name. -/
def label : Key → String
  | .named key => key.label
  | .character text => text
  | .any => "any"

example : parse? "ArrowUp" = parse? "up arrow" := by decide +kernel
example : parse? "KeyA" = some (.character "a") := by decide +kernel
example : parse? "hyperdrive" = none := by decide +kernel

end Key

/-! ## Input devices -/

/-- Held keys and the pointer, whose position is in canvas pixels from the top-left corner. -/
structure InputState where
  held : List Key
  pointer : Vec Float32
  pressed : Bool

namespace InputState

/-- Nothing held, the pointer at the corner. -/
def empty : InputState := ⟨[], ⟨0, 0⟩, false⟩

/-- Holds a key; answers whether it was not held already. -/
def press (s : InputState) (k : Key) : Bool × InputState :=
  if s.held.contains k then (false, s) else (true, { s with held := s.held ++ [k] })

/-- Lets a key go. -/
def release (s : InputState) (k : Key) : InputState :=
  { s with held := s.held.filter fun h => h != k }

/-- Is the key held? `any` asks for any key at all. -/
def isHeld (s : InputState) (k : Key) : Bool :=
  match k with
  | .any => !s.held.isEmpty
  | k => s.held.contains k

/-- Lets everything go and leaves the pointer where it is. -/
def clear (s : InputState) : InputState := { s with held := [], pressed := false }

end InputState

end BlockStage
