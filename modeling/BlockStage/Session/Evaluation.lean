/-
  Evaluation: the values of expressions in a session.

  An expression looks at the session and never changes it, save that a random number moves the
  generator on.  Parts are evaluated in order; the second part of `and` and `or` only if it counts.
-/
import BlockStage.Session.Basic

namespace BlockStage

/-- A number of four bytes as a value, null without one. -/
def Value.ofSingle? : Option Float32 → Value
  | some x => .number (widen x)
  | none => .null

namespace Expr

/-- The first actor that an entity touches, if a filter allows it. -/
def touchedBy? (s : Session) (entity : String) (filter : Option Target) : Option String := do
  let h ← s.handle? entity
  let first ← (s.stage.allTouching h filter).head?
  s.stage.id? first

/-- Does the entity touch the target? -/
def isTouching (s : Session) (entity : String) (target : Target) : Bool :=
  match s.handle? entity with
  | some h => s.stage.isTouching h target s.input.pointer
  | none => false

/-- The distance from the entity to the target. -/
def distance? (s : Session) (entity : String) (target : Target) : Option Float32 :=
  (s.handle? entity).bind fun h => s.stage.distance? h target s.input.pointer

/-- The value of an expression for an entity. -/
def eval (s : Session) (entity : String) : Expr → StateM Generator Value
  | .const v => return v
  | .math op a b => do
    let x ← eval s entity a
    let y ← eval s entity b
    return .number (op.apply x.toNumber y.toNumber)
  | .apply f x => do
    let v ← eval s entity x
    return .number (f.apply v.toNumber)
  | .random whole low high => do
    let x ← eval s entity low
    let y ← eval s entity high
    let n ← modifyGet (drawBetween x.toNumber y.toNumber whole)
    return .number n
  | .compare test a b => do
    let x ← eval s entity a
    let y ← eval s entity b
    return .bool (test.passes (x.compare y))
  | .and a b => do
    let x ← eval s entity a
    if x.toBool then
      let y ← eval s entity b
      return .bool y.toBool
    else return .bool false
  | .or a b => do
    let x ← eval s entity a
    if x.toBool then return .bool true
    else
      let y ← eval s entity b
      return .bool y.toBool
  | .not x => do
    let v ← eval s entity x
    return .bool (!v.toBool)
  | .join a b => do
    let x ← eval s entity a
    let y ← eval s entity b
    return .text (x.toText ++ y.toText)
  | .length x => do
    let v ← eval s entity x
    return .number (doubleOfInt v.toText.length)
  | .readVariable key => return s.store.get entity key
  | .touching target => return .bool (isTouching s entity target)
  | .distance target => return .ofSingle? (distance? s entity target)
  | .keyHeld key => return .bool (s.input.isHeld key)
  | .touchingObject filter =>
    return match touchedBy? s entity filter with
      | some id => .text id
      | none => .null
  | .pointerX => return .number (widen s.pointer.x)
  | .pointerY => return .number (widen s.pointer.y)
  | .pointerDown => return .bool s.input.pressed
  | .myX => return .ofSingle? ((s.position? entity).map Vec.x)
  | .myY => return .ofSingle? ((s.position? entity).map Vec.y)
  | .myDirection => return .ofSingle? (s.direction? entity)
  | .myCostume =>
    return match s.costume? entity with
      | some i => .number (doubleOfInt i + 1)
      | none => .null
  | .myScale => return .ofSingle? (s.scale? entity)
  | .timer => return .number s.clock.timer
  | .onGround => return .bool (s.onGround entity)
  | .myId => return .text entity
  | .isClone => return .bool (s.isClone entity)

end Expr

namespace Play

/-- Evaluates an expression for an entity. -/
def evaluate (entity : String) (e : Expr) : Play Value :=
  changing fun s =>
    let (v, g) := (e.eval s entity).run s.generator
    (v, { s with generator := g })

end Play

end BlockStage
