/-
  Scripts: what a block program means, before anything runs.

  An expression gives a value, an action does one thing, and a statement is an action or directs
  the course of a script.  A behavior is a body and what triggers it.  References are kept as the
  texts found in the program; nothing here touches a session.
-/
import BlockStage.Block.Target
import BlockStage.Script.Arithmetic

namespace BlockStage

/-- What gives a value. -/
inductive Expr where
  | const (value : Value)
  | math (op : MathOperator) (a b : Expr)
  | apply (f : MathFunction) (x : Expr)
  | random (whole : Bool) (low high : Expr)
  | compare (test : Comparison) (a b : Expr)
  | and (a b : Expr)
  | or (a b : Expr)
  | not (x : Expr)
  | join (a b : Expr)
  | length (x : Expr)
  | readVariable (key : String)
  | touching (target : Target)
  | distance (target : Target)
  | keyHeld (key : Key)
  | touchingObject (filter : Option Target)
  | pointerX | pointerY | pointerDown
  | myX | myY | myDirection | myCostume | myScale
  | timer | onGround | myId | isClone

instance : Inhabited Expr := ⟨.const .null⟩

/-- What does one thing to a session. -/
inductive Action where
  | moveSteps (steps : Expr)
  | turn (degrees : Expr)
  | goTo (x y : Expr)
  | changeX (amount : Expr)
  | changeY (amount : Expr)
  | setX (x : Expr)
  | setY (y : Expr)
  | pointDirection (degrees : Expr)
  | pointTowards (target : Expr)
  | goToTarget (target : Expr)
  | glide (seconds x y : Expr)
  | enablePhysics
  | setVelocity (x y : Expr)
  | setGravityScale (scale : Expr)
  | setVisible (visible : Bool)
  | switchCostume (key : Expr)
  | nextCostume
  | setScale (scale : Expr)
  | changeScale (delta : Expr)
  | setDepth (depth : Expr)
  | playSound (key : Expr) (wait : Bool)
  | stopAllSounds
  | wait (seconds : Expr)
  | stopAll
  | stopSelf
  | createClone (source : Expr)
  | deleteSelf
  | broadcast (message : Expr)
  | attachTo (parent : Expr)
  | detach
  | switchScene (scene : Expr)
  | resetTimer
  | setVariable (key : String) (value : Expr)
  | changeVariable (key : String) (delta : Expr)
  | log (message : Expr)

/-- A statement.  `forever` adds a looping behavior of its own identity to the entity and ends the
    script. -/
inductive Stmt where
  | action (a : Action)
  | forever (loop : Nat) (body : List Stmt)
  | branch (condition : Expr) (yes : List Stmt) (no : Option (List Stmt))
  | repeatTimes (times : Expr) (body : List Stmt)
  | repeatUntil (condition : Expr) (body : List Stmt)
  | waitUntil (condition : Expr)
  | forEach (name : String) (count : Expr) (body : List Stmt)

instance : Inhabited Stmt := ⟨.action .stopAll⟩

namespace Stmt

/-- A short description: the kind of statement and the lengths of its bodies. -/
def describe : Stmt → String
  | .action _ => "Action"
  | .forever _ _ => "Action"
  | .branch _ yes none => "If(then: " ++ toString yes.length ++ ", else: None)"
  | .branch _ yes (some no) =>
    "If(then: " ++ toString yes.length ++ ", else: Some(" ++ toString no.length ++ "))"
  | .repeatTimes _ body => "Repeat(" ++ toString body.length ++ ")"
  | .repeatUntil _ body => "RepeatUntil(" ++ toString body.length ++ ")"
  | .waitUntil _ => "WaitUntil"
  | .forEach name _ body => "ForEach(" ++ name ++ ", " ++ toString body.length ++ ")"

/-- The bodies that run as part of the same script. -/
def bodies : Stmt → List (List Stmt)
  | .branch _ yes none => [yes]
  | .branch _ yes (some no) => [yes, no]
  | .repeatTimes _ body => [body]
  | .repeatUntil _ body => [body]
  | .forEach _ _ body => [body]
  | _ => []

end Stmt

/-! ## Triggers and behaviors -/

/-- The kinds of event that can trigger a behavior, in the order of their flags. -/
inductive EventKind where
  | start | cloneStart | key | click | touching | message | forever
deriving Repr, DecidableEq

namespace EventKind

/-- All kinds. -/
def all : List EventKind := [.start, .cloneStart, .key, .click, .touching, .message, .forever]

/-- The name of a flag. -/
def label : EventKind → String
  | .start => "START"
  | .cloneStart => "CLONE_START"
  | .key => "KEY"
  | .click => "CLICK"
  | .touching => "TOUCHING"
  | .message => "MESSAGE"
  | .forever => "FOREVER"

end EventKind

/-- What starts a behavior. -/
inductive Trigger where
  | start
  | cloneStart
  | key (key : Key)
  | click
  | touching (target : Target)
  | message (name : String)
  | forever
deriving Repr, DecidableEq

/-- The kind of event a trigger waits for. -/
def Trigger.kind : Trigger → EventKind
  | .start => .start
  | .cloneStart => .cloneStart
  | .key _ => .key
  | .click => .click
  | .touching _ => .touching
  | .message _ => .message
  | .forever => .forever

/-- A set of kinds of event. -/
structure EventMask where
  bits : BitVec 7
deriving Repr, DecidableEq

namespace EventMask

/-- No kind. -/
def empty : EventMask := ⟨0⟩

/-- The place of a kind among the flags. -/
def place : EventKind → Nat
  | .start => 0
  | .cloneStart => 1
  | .key => 2
  | .click => 3
  | .touching => 4
  | .message => 5
  | .forever => 6

/-- One kind. -/
def only (k : EventKind) : EventMask := ⟨BitVec.twoPow 7 (place k)⟩

/-- The kinds of either mask. -/
def union (a b : EventMask) : EventMask := ⟨a.bits ||| b.bits⟩

/-- Is the kind in the mask? -/
def has (m : EventMask) (k : EventKind) : Bool := m.bits.getLsbD (place k)

/-- The kinds in the mask, in order. -/
def kinds (m : EventMask) : List EventKind := EventKind.all.filter m.has

/-- The names of the flags in order. -/
def labels (m : EventMask) : List String := m.kinds.map EventKind.label

end EventMask

/-- A script with its trigger and an identity that its copies share. -/
structure Behavior where
  id : Nat
  trigger : Trigger
  body : List Stmt

end BlockStage
