/-
  The kinds of block: their names, their shapes, and which of their fields refer to other parts of
  a project.

  One list of kinds with their names serves reading and writing, so a name is read back as the kind
  it was written for.
-/

namespace BlockStage

/-- What a block is for: to start a script, to act in one, or to give a value. -/
inductive BlockShape where
  | hat | statement | expression
deriving Repr, DecidableEq

/-- Every kind of block. -/
inductive BlockKind where
  -- hats
  | whenGameStarts | whenKeyPressed | whenClicked | whenTouching | whenMessageReceived
  | everyFrame | whenCloneStarts
  -- statements
  | moveSteps | turnDegrees | goToXy | changeX | changeY | setX | setY | pointDirection
  | pointTowards | glideToXy | goToTarget | enablePhysics | setVelocity | setGravityScale | show
  | hide | switchCostume | nextCostume | setScale | changeScale | setDepth | playSound
  | playSoundUntilDone | stopAllSounds | waitSeconds | waitUntil | repeatTimes | repeatUntil
  | forEach | ifThen | ifElse | forever | stopAll | stopSelf | createClone | deleteSelf
  | broadcast | attachTo | detach | switchScene | resetTimer | setVariable | changeVariable | log
  -- expressions
  | number | text | boolean | mathOp | mathFn | randomRange | compare | logicOp | logicNot | join
  | textLength | getVariable | touching | distanceTo | keyDown | pointerX | pointerY
  | pointerDown | getTouchingObject | myX | myY | myDirection | myCostume | myScale | timer
  | isOnGround | myId | isClone
deriving Repr, DecidableEq

namespace BlockKind

/-- The kinds in order, with their names. -/
def named : List (BlockKind × String) :=
  [
    (.whenGameStarts, "when_game_starts"), (.whenKeyPressed, "when_key_pressed"),
    (.whenClicked, "when_clicked"), (.whenTouching, "when_touching"),
    (.whenMessageReceived, "when_message_received"), (.everyFrame, "every_frame"),
    (.whenCloneStarts, "when_clone_starts"), (.moveSteps, "move_steps"),
    (.turnDegrees, "turn_degrees"), (.goToXy, "go_to_xy"), (.changeX, "change_x"),
    (.changeY, "change_y"), (.setX, "set_x"), (.setY, "set_y"),
    (.pointDirection, "point_direction"), (.pointTowards, "point_towards"),
    (.glideToXy, "glide_to_xy"), (.goToTarget, "go_to_target"),
    (.enablePhysics, "enable_physics"), (.setVelocity, "set_velocity"),
    (.setGravityScale, "set_gravity_scale"), (.show, "show"), (.hide, "hide"),
    (.switchCostume, "switch_costume"), (.nextCostume, "next_costume"), (.setScale, "set_scale"),
    (.changeScale, "change_scale"), (.setDepth, "set_depth"), (.playSound, "play_sound"),
    (.playSoundUntilDone, "play_sound_until_done"), (.stopAllSounds, "stop_all_sounds"),
    (.waitSeconds, "wait_seconds"), (.waitUntil, "wait_until"), (.repeatTimes, "repeat"),
    (.repeatUntil, "repeat_until"), (.forEach, "for_each"), (.ifThen, "if"),
    (.ifElse, "if_else"), (.forever, "forever"), (.stopAll, "stop_all"),
    (.stopSelf, "stop_self"), (.createClone, "create_clone"), (.deleteSelf, "delete_self"),
    (.broadcast, "broadcast"), (.attachTo, "attach_to"), (.detach, "detach"),
    (.switchScene, "switch_scene"), (.resetTimer, "reset_timer"), (.setVariable, "set_variable"),
    (.changeVariable, "change_variable"), (.log, "log"), (.number, "number"), (.text, "text"),
    (.boolean, "boolean"), (.mathOp, "math_op"), (.mathFn, "math_fn"),
    (.randomRange, "random_range"), (.compare, "compare"), (.logicOp, "logic_op"),
    (.logicNot, "logic_not"), (.join, "join"), (.textLength, "text_length"),
    (.getVariable, "get_variable"), (.touching, "touching"), (.distanceTo, "distance_to"),
    (.keyDown, "key_down"), (.pointerX, "pointer_x"), (.pointerY, "pointer_y"),
    (.pointerDown, "pointer_down"), (.getTouchingObject, "get_touching_object"), (.myX, "my_x"),
    (.myY, "my_y"), (.myDirection, "my_direction"), (.myCostume, "my_costume"),
    (.myScale, "my_scale"), (.timer, "timer"), (.isOnGround, "is_on_ground"), (.myId, "my_id"),
    (.isClone, "is_clone")
  ]

/-- Every kind, in order. -/
def all : List BlockKind := named.map Prod.fst

/-- The name of a kind. -/
def name (k : BlockKind) : String := (named.lookup k).getD ""

/-- The kind of a name. -/
def parse? (s : String) : Option BlockKind :=
  (named.find? fun e => e.2 == s).map Prod.fst

/-- The shape of a kind. -/
def shape : BlockKind → BlockShape
  | .whenGameStarts | .whenKeyPressed | .whenClicked | .whenTouching | .whenMessageReceived
  | .everyFrame | .whenCloneStarts => .hat
  | .number | .text | .boolean | .mathOp | .mathFn | .randomRange | .compare | .logicOp
  | .logicNot | .join | .textLength | .getVariable | .touching | .distanceTo | .keyDown
  | .pointerX | .pointerY | .pointerDown | .getTouchingObject | .myX | .myY | .myDirection
  | .myCostume | .myScale | .timer | .isOnGround | .myId | .isClone => .expression
  | _ => .statement

/-- Does the kind start a script? -/
def isHat (k : BlockKind) : Bool := k.shape == .hat

/-- Does the kind give a value? -/
def isExpression (k : BlockKind) : Bool := k.shape == .expression

/-- Is this the name of a hat? -/
def isHatName (s : String) : Bool :=
  match parse? s with
  | some k => k.isHat
  | none => false

end BlockKind

/-! ## Reference fields -/

/-- What a reference field points at. -/
inductive ReferenceKind where
  | entity | sensingTarget | variable | sound | costume
deriving Repr, DecidableEq

/-- A field of a kind of block that refers to another part of a project. -/
structure ReferenceField where
  block : BlockKind
  field : String
  kind : ReferenceKind
deriving Repr, DecidableEq

/-- Every reference field, in order; no kind of block has two. -/
def referenceFields : List ReferenceField :=
  [
    ⟨.whenTouching, "TARGET", .sensingTarget⟩,
    ⟨.goToTarget, "TARGET", .entity⟩,
    ⟨.pointTowards, "TARGET", .entity⟩,
    ⟨.switchCostume, "COSTUME", .costume⟩,
    ⟨.playSound, "SOUND", .sound⟩,
    ⟨.playSoundUntilDone, "SOUND", .sound⟩,
    ⟨.createClone, "TARGET", .entity⟩,
    ⟨.attachTo, "TARGET", .entity⟩,
    ⟨.forEach, "VARIABLE", .variable⟩,
    ⟨.setVariable, "VARIABLE", .variable⟩,
    ⟨.changeVariable, "VARIABLE", .variable⟩,
    ⟨.getVariable, "VARIABLE", .variable⟩,
    ⟨.touching, "TARGET", .sensingTarget⟩,
    ⟨.distanceTo, "TARGET", .sensingTarget⟩,
    ⟨.getTouchingObject, "FILTER", .sensingTarget⟩
  ]

/-- The reference field of a kind of block, if it has one. -/
def referenceField? (k : BlockKind) : Option ReferenceField :=
  referenceFields.find? fun r => r.block == k

example : BlockKind.all.all (fun k => BlockKind.parse? k.name == some k) = true := by
  decide +kernel

end BlockStage
