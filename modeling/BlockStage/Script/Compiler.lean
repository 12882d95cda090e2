/-
  From block programs to behaviors.

  Each top-level hat with a readable trigger gives one behavior; other top-level blocks never run.
  A block that cannot be compiled is left out with a diagnostic that names its place in the
  program; a value that cannot be compiled is replaced by a constant.

  The crux is the shape of the recursion.  A block needs the meaning of some of the blocks plugged
  into it, chosen by name, and each diagnostic needs the path by which its block was reached.  So the
  recursion turns every plugged block into a function of its path first, and the table of one block
  then picks by name.
-/
import BlockStage.Block.Kind
import BlockStage.Block.Program
import BlockStage.Script.Syntax

namespace BlockStage

/-! ## Diagnostics -/

/-- What is wrong with a block. -/
inductive Problem where
  | unknownBlock
  | nestedHat
  | valueAsStatement
  | statementAsValue
  | unreachable
  | unknownKey (raw : String)
  | noTouchTarget
  | noMessageName
  | noTarget
  | noVariable
  | noLoopVariable
  | unknownMathOperator (raw : String)
  | unknownMathFunction (raw : String)
  | unknownComparison (raw : String)
  | unknownLogicOperator (raw : String)
deriving Repr, DecidableEq

/-- The message of a problem. -/
def Problem.message : Problem → String
  | .unknownBlock => "unknown block type"
  | .nestedHat => "event block nested inside a script"
  | .valueAsStatement => "value block used as a statement"
  | .statementAsValue => "statement or hat block used as a value"
  | .unreachable => "unreachable after forever"
  | .unknownKey raw => "unknown key '" ++ raw ++ "'"
  | .noTouchTarget => "touch hat has no target"
  | .noMessageName => "message hat has no message name"
  | .noTarget => "no target selected"
  | .noVariable => "no variable selected"
  | .noLoopVariable => "no loop variable selected"
  | .unknownMathOperator raw => "unknown math operator '" ++ raw ++ "'"
  | .unknownMathFunction raw => "unknown math function '" ++ raw ++ "'"
  | .unknownComparison raw => "unknown comparison '" ++ raw ++ "'"
  | .unknownLogicOperator raw => "unknown logic operator '" ++ raw ++ "'"

/-- A problem, the block that has it, and the path to that block. -/
structure Diagnostic where
  path : String
  block : String
  problem : Problem
deriving Repr, DecidableEq

/-- The line of a diagnostic. -/
def Diagnostic.line (d : Diagnostic) : String :=
  d.block ++ " at " ++ d.path ++ ": " ++ d.problem.message

/-- What a compilation has found so far, and the next free identity. -/
structure CompileState where
  diagnostics : List Diagnostic
  nextId : Nat

/-- A step of a compilation. -/
abbrev Compile := StateM CompileState

namespace Compile

/-- Reports a problem. -/
def report (path type : String) (problem : Problem) : Compile Unit :=
  modify fun s => { s with diagnostics := s.diagnostics ++ [⟨path, type, problem⟩] }

/-- Takes an identity. -/
def freshId : Compile Nat := do
  let s ← get
  set { s with nextId := s.nextId + 1 }
  return s.nextId

/-- The slot of a body. -/
def bodySlot : String := "DO"

/-- The slot of an alternative body. -/
def elseSlot : String := "ELSE"

/-- Blocks plugged into value slots, as functions of their paths. -/
abbrev Slots := List (String × (String → Compile Expr))

/-- Bodies, as functions of their paths. -/
abbrev Bodies := List (String × (String → Compile (List Stmt)))

/-- What is known about one block: its type, its path, its fields and its slots. -/
structure Site where
  type : String
  path : String
  fields : List (String × Value)
  slots : Slots
  bodies : Bodies

namespace Site

/-- Reports a problem of the block. -/
def report (s : Site) (p : Problem) : Compile Unit := Compile.report s.path s.type p

/-- The text of a field, empty without the field. -/
def text (s : Site) (name : String) : String :=
  match s.fields.lookup name with
  | some v => v.toText
  | none => ""

/-- The value in a slot: the plugged block, else the field of that name, else the fallback. -/
def value (s : Site) (name : String) (fallback : Value) : Compile Expr :=
  match s.slots.lookup name with
  | some plugged => plugged (s.path ++ "/" ++ name)
  | none => return .const ((s.fields.lookup name).getD fallback)

/-- The value in a slot for a number. -/
def number (s : Site) (name : String) : Compile Expr := s.value name (.number 0)

/-- The body in a slot. -/
def body (s : Site) (slot : String) : Compile (List Stmt) :=
  match s.bodies.lookup slot with
  | some b => b (s.path ++ "/" ++ slot)
  | none => return []

/-- The target in a field. -/
def target (s : Site) (field : String) : Compile (Option Target) := do
  match Target.parse? (s.text field) with
  | some t => return some t
  | none =>
    s.report .noTarget
    return none

/-- Reports a problem and gives a constant in place of the block. -/
def instead (s : Site) (p : Problem) (v : Value) : Compile Expr := do
  s.report p
  return .const v

/-! ## Values -/

/-- Is a bound of a random range a literal that looks whole? -/
def literalWhole (s : Site) (name : String) : Bool :=
  (s.slots.lookup name).isNone
    && match s.fields.lookup name with
      | some v => looksWhole v
      | none => true

/-- The expression of a value block. -/
def expression (s : Site) (kind : BlockKind) : Compile Expr := do
  match kind with
  | .number =>
    return .const (.number (((s.fields.lookup "NUM").map Value.toNumber).getD 0))
  | .text => return .const (.text (s.text "TEXT"))
  | .boolean => return .const (.bool (((s.fields.lookup "BOOL").map Value.toBool).getD false))
  | .mathOp =>
    match MathOperator.parse? (s.text "OP") with
    | none => s.instead (.unknownMathOperator (s.text "OP")) (.number 0)
    | some op =>
      let a ← s.number "A"
      let b ← s.number "B"
      return .math op a b
  | .mathFn =>
    match MathFunction.parse? (s.text "FN") with
    | none => s.instead (.unknownMathFunction (s.text "FN")) (.number 0)
    | some f =>
      let x ← s.number "X"
      return .apply f x
  | .randomRange =>
    let whole := s.literalWhole "FROM" && s.literalWhole "TO"
    let low ← s.number "FROM"
    let high ← s.number "TO"
    return .random whole low high
  | .compare =>
    match Comparison.parse? (s.text "OP") with
    | none => s.instead (.unknownComparison (s.text "OP")) (.bool false)
    | some test =>
      let a ← s.value "A" .null
      let b ← s.value "B" .null
      return .compare test a b
  | .logicOp =>
    let op := asciiLower (s.text "OP")
    let a ← s.value "A" (.bool false)
    let b ← s.value "B" (.bool false)
    if op = "and" then return .and a b
    else if op = "or" then return .or a b
    else s.instead (.unknownLogicOperator op) (.bool false)
  | .logicNot =>
    let x ← s.value "X" (.bool false)
    return .not x
  | .join =>
    let a ← s.value "A" (.text "")
    let b ← s.value "B" (.text "")
    return .join a b
  | .textLength =>
    let x ← s.value "TEXT" (.text "")
    return .length x
  | .getVariable =>
    if isBlankText (s.text "VARIABLE") then s.instead .noVariable (.number 0)
    else return .readVariable (s.text "VARIABLE")
  | .touching =>
    match ← s.target "TARGET" with
    | some t => return .touching t
    | none => return .const (.bool false)
  | .distanceTo =>
    match ← s.target "TARGET" with
    | some t => return .distance t
    | none => return .const .null
  | .keyDown =>
    match Key.parse? (s.text "KEY") with
    | some key => return .keyHeld key
    | none => s.instead (.unknownKey (s.text "KEY")) (.bool false)
  | .getTouchingObject => return .touchingObject (Target.parse? (s.text "FILTER"))
  | .pointerX => return .pointerX
  | .pointerY => return .pointerY
  | .pointerDown => return .pointerDown
  | .myX => return .myX
  | .myY => return .myY
  | .myDirection => return .myDirection
  | .myCostume => return .myCostume
  | .myScale => return .myScale
  | .timer => return .timer
  | .isOnGround => return .onGround
  | .myId => return .myId
  | .isClone => return .isClone
  | _ => s.instead .statementAsValue .null

/-- The expression of a block that stands where a value is wanted. -/
def plugged (s : Site) : Compile Expr :=
  match BlockKind.parse? s.type with
  | none => s.instead .unknownBlock .null
  | some kind =>
    if kind.isExpression then s.expression kind else s.instead .statementAsValue .null

/-! ## Statements -/

/-- An action from one number. -/
def action1 (s : Site) (name : String) (f : Expr → Action) : Compile (Option Stmt) := do
  let x ← s.number name
  return some (.action (f x))

/-- An action from two numbers. -/
def action2 (s : Site) (a b : String) (f : Expr → Expr → Action) : Compile (Option Stmt) := do
  let x ← s.number a
  let y ← s.number b
  return some (.action (f x y))

/-- An action from one value. -/
def actionOf (s : Site) (name : String) (fallback : Value) (f : Expr → Action) :
    Compile (Option Stmt) := do
  let x ← s.value name fallback
  return some (.action (f x))

/-- Reports a problem and leaves the block out. -/
def without (s : Site) (p : Problem) : Compile (Option Stmt) := do
  s.report p
  return none

/-- The statement of a block that is neither hat nor value. -/
def statementOf (s : Site) (kind : BlockKind) : Compile (Option Stmt) := do
  match kind with
  | .moveSteps => s.action1 "STEPS" .moveSteps
  | .turnDegrees => s.action1 "DEGREES" .turn
  | .goToXy => s.action2 "X" "Y" .goTo
  | .changeX => s.action1 "DX" .changeX
  | .changeY => s.action1 "DY" .changeY
  | .setX => s.action1 "X" .setX
  | .setY => s.action1 "Y" .setY
  | .pointDirection => s.action1 "DIRECTION" .pointDirection
  | .pointTowards => s.actionOf "TARGET" .null .pointTowards
  | .goToTarget => s.actionOf "TARGET" .null .goToTarget
  | .glideToXy =>
    let seconds ← s.number "SECS"
    let x ← s.number "X"
    let y ← s.number "Y"
    return some (.action (.glide seconds x y))
  | .enablePhysics => return some (.action .enablePhysics)
  | .setVelocity => s.action2 "VX" "VY" .setVelocity
  | .setGravityScale => s.action1 "SCALE" .setGravityScale
  | .show => return some (.action (.setVisible true))
  | .hide => return some (.action (.setVisible false))
  | .switchCostume => s.actionOf "COSTUME" .null .switchCostume
  | .nextCostume => return some (.action .nextCostume)
  | .setScale => s.actionOf "SCALE" (.number 1) .setScale
  | .changeScale => s.action1 "DELTA" .changeScale
  | .setDepth => s.action1 "DEPTH" .setDepth
  | .playSound => s.actionOf "SOUND" .null fun key => .playSound key false
  | .playSoundUntilDone => s.actionOf "SOUND" .null fun key => .playSound key true
  | .stopAllSounds => return some (.action .stopAllSounds)
  | .waitSeconds => s.action1 "SECS" .wait
  | .waitUntil =>
    let condition ← s.value "CONDITION" (.bool false)
    return some (.waitUntil condition)
  | .repeatTimes =>
    let times ← s.value "TIMES" (.number 10)
    let body ← s.body bodySlot
    return some (.repeatTimes times body)
  | .repeatUntil =>
    let condition ← s.value "CONDITION" (.bool false)
    let body ← s.body bodySlot
    return some (.repeatUntil condition body)
  | .forEach =>
    if isBlankText (s.text "VARIABLE") then s.without .noLoopVariable
    else
      let count ← s.value "COUNT" (.number 10)
      let body ← s.body bodySlot
      return some (.forEach (s.text "VARIABLE") count body)
  | .ifThen =>
    let condition ← s.value "CONDITION" (.bool false)
    let yes ← s.body bodySlot
    return some (.branch condition yes none)
  | .ifElse =>
    let condition ← s.value "CONDITION" (.bool false)
    let yes ← s.body bodySlot
    let no ← s.body elseSlot
    return some (.branch condition yes (some no))
  | .forever =>
    let body ← s.body bodySlot
    let loop ← freshId
    return some (.forever loop body)
  | .stopAll => return some (.action .stopAll)
  | .stopSelf => return some (.action .stopSelf)
  | .createClone => s.actionOf "TARGET" (.text Token.myself) .createClone
  | .deleteSelf => return some (.action .deleteSelf)
  | .broadcast => s.actionOf "MESSAGE" .null .broadcast
  | .attachTo => s.actionOf "TARGET" .null .attachTo
  | .detach => return some (.action .detach)
  | .switchScene => s.actionOf "SCENE" .null .switchScene
  | .resetTimer => return some (.action .resetTimer)
  | .setVariable =>
    if isBlankText (s.text "VARIABLE") then s.without .noVariable
    else s.actionOf "VALUE" (.number 0) (.setVariable (s.text "VARIABLE"))
  | .changeVariable =>
    if isBlankText (s.text "VARIABLE") then s.without .noVariable
    else s.actionOf "DELTA" (.number 1) (.changeVariable (s.text "VARIABLE"))
  | .log => s.actionOf "MESSAGE" (.text "") .log
  | _ => s.without .valueAsStatement

/-- The statement of a block that stands in a body. -/
def statement (s : Site) : Compile (Option Stmt) :=
  match BlockKind.parse? s.type with
  | none => s.without .unknownBlock
  | some kind =>
    if kind.isHat then s.without .nestedHat
    else if kind.isExpression then s.without .valueAsStatement
    else s.statementOf kind

/-! ## Triggers -/

/-- The trigger of a hat. -/
def trigger (s : Site) (kind : BlockKind) : Compile (Option Trigger) := do
  match kind with
  | .whenGameStarts => return some .start
  | .whenCloneStarts => return some .cloneStart
  | .whenClicked => return some .click
  | .everyFrame => return some .forever
  | .whenKeyPressed =>
    match Key.parse? (s.text "KEY") with
    | some key => return some (.key key)
    | none =>
      s.report (.unknownKey (s.text "KEY"))
      return none
  | .whenTouching =>
    match Target.parse? (s.text "TARGET") with
    | some t => return some (.touching t)
    | none =>
      s.report .noTouchTarget
      return none
  | .whenMessageReceived =>
    if isBlankText (s.text "MESSAGE") then
      s.report .noMessageName
      return none
    else return some (.message (trimText (s.text "MESSAGE")))
  | _ => return none

end Site

/-! ## The recursion over blocks -/

mutual

/-- A plugged block as a function of its path. -/
def exprOf : Block → String → Compile Expr
  | .mk type fields inputs _, path => Site.plugged ⟨type, path, fields, slotsOf inputs, []⟩

/-- All plugged blocks. -/
def slotsOf : List (String × Block) → Slots
  | [] => []
  | (name, b) :: rest => (name, exprOf b) :: slotsOf rest

end

mutual

/-- A block in a body as a function of its path. -/
def stmtOf : Block → String → Compile (Option Stmt)
  | .mk type fields inputs statements, path =>
    Site.statement ⟨type, path, fields, slotsOf inputs, bodiesOf statements⟩

/-- The bodies of a block. -/
def bodiesOf : List (String × List Block) → Bodies
  | [] => []
  | (slot, l) :: rest => (slot, bodyOf l 0 false) :: bodiesOf rest

/-- A body: its blocks from the given position on, unless a `forever` came before them. -/
def bodyOf : List Block → Nat → Bool → String → Compile (List Stmt)
  | [], _, _, _ => return []
  | b :: rest, index, capped, path => do
    let here := path ++ "/" ++ toString index
    if capped then
      report here b.type .unreachable
      bodyOf rest (index + 1) true path
    else
      let first ← stmtOf b here
      let others ← bodyOf rest (index + 1) (b.type == BlockKind.forever.name) path
      return first.toList ++ others

end

/-- What is known about a block that is reached by a path. -/
def siteOf (b : Block) (path : String) : Site :=
  ⟨b.type, path, b.fields, slotsOf b.inputs, bodiesOf b.statements⟩

/-- The behavior of a top-level block, if it has one. -/
def behavior (b : Block) (index : Nat) : Compile (Option Behavior) := do
  let site := siteOf b (toString index)
  match BlockKind.parse? b.type with
  | none =>
    site.report .unknownBlock
    return none
  | some kind =>
    if !kind.isHat then return none
    else
      match ← site.trigger kind with
      | none => return none
      | some trigger =>
        let body ← site.body bodySlot
        let id ← freshId
        return some ⟨id, trigger, body⟩

/-- The behaviors of the top-level blocks from the given position on. -/
def behaviors : List Block → Nat → Compile (List Behavior)
  | [], _ => return []
  | b :: rest, index => do
    let first ← behavior b index
    let others ← behaviors rest (index + 1)
    return first.toList ++ others

end Compile

/-! ## Compiled programs -/

/-- The behaviors of a program, what was wrong with it, and the next free identity. -/
structure CompiledProgram where
  behaviors : List Behavior
  diagnostics : List Diagnostic
  nextId : Nat

namespace CompiledProgram

/-- The kinds of event that the behaviors wait for. -/
def required (c : CompiledProgram) : EventMask :=
  c.behaviors.foldl (fun m b => m.union (.only b.trigger.kind)) .empty

end CompiledProgram

/-- Compiles a program, giving identities from `first` on. -/
def Program.compile (p : Program) (first : Nat) : CompiledProgram :=
  let (behaviors, s) := (Compile.behaviors p 0).run ⟨[], first⟩
  ⟨behaviors, s.diagnostics, s.nextId⟩

end BlockStage
