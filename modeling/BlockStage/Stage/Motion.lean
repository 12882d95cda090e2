/-
  Motion: one step of physics.

  A step pins the bodies of attached actors to them, lets the others fall, and copies what moved back
  to the actors.  A step that takes no time moves nothing but still pins and copies.

  What becomes of the bodies in a time (`Passage`) is kept apart from what the stage makes of it: it
  moves the bodies, and takes note of a contact as long as someone is behind both of its colliders.

  Time is cut into substeps, each adding acceleration and then velocity.  Solids whose boxes come
  within `contactGap` are in contact: their velocities may not close the gap further than it is
  wide, and boxes that lie in each other are pushed apart with bounded speed.  A new contact of
  bodies that bounce sends them back with a part of the speed at which they met.
-/
import BlockStage.Stage.Roster

namespace BlockStage

/-- What a step reports: actors that came to stand on the ground or left it, and pairs of bodies that
    began or ceased to be in contact. -/
structure StepReport where
  grounds : List (Handle × Bool)
  pairs : List (Bool × Handle × Handle)
deriving Repr

namespace Stage

variable {α : Type} [Scalar α]

/-! ## Contacts -/

/-- Boxes nearer than this are in contact. -/
def contactGap : α := Scalar.ratio 2 1000

/-- The number of substeps. -/
def substeps : Nat := 4

/-- A body with the handle of its actor. -/
abbrev Moving (α : Type) := Handle × Body α

/-- All bodies of actors. -/
def bodies (s : Stage α) : List (Moving α) :=
  s.actors.entries.filterMap fun e => e.2.body.map fun b => (e.1, b)

/-- The colliders that stand around the canvas, with their boxes. -/
def enclosure (s : Stage α) : List (ColliderKey × Box α) :=
  let t := s.physics.thickness
  let w := s.canvas.width
  let h := s.canvas.height
  let ground : Box α :=
    Box.around ⟨w * Scalar.half, h + t⟩ ⟨w * Scalar.half + t * Scalar.ofInt 2, t⟩
  let wall := fun x : α => Box.around (⟨x, h * Scalar.half⟩ : Vec α) ⟨t, h * Scalar.half + t⟩
  (s.solids.ground.toList.map fun c => (c, ground)) ++ s.solids.walls.zip [wall (-t), wall (w + t)]

/-- The gaps between two boxes along both axes, negative where they overlap. -/
def gaps (a b : Box α) : Vec α :=
  ⟨Scalar.maxOf (b.min.x - a.max.x) (a.min.x - b.max.x),
    Scalar.maxOf (b.min.y - a.max.y) (a.min.y - b.max.y)⟩

/-- Are two boxes near enough to be in contact? -/
def near (a b : Box α) : Bool :=
  let g := gaps a b
  Scalar.lessEq g.x contactGap && Scalar.lessEq g.y contactGap

/-- The contacts of one body with the enclosure and with the bodies after it. -/
def contactsOf (around : List (ColliderKey × Box α)) (m : Moving α) (rest : List (Moving α)) :
    List Contact :=
  let box := m.2.reach
  let fixed := if m.2.pinned then [] else around.filter fun e => near box e.2
  let others := rest.filter fun o => !(m.2.pinned && o.2.pinned) && near box o.2.reach
  fixed.map (fun e => ⟨m.2.collider, e.1⟩) ++ others.map fun o => ⟨m.2.collider, o.2.collider⟩

/-- All contacts among bodies and the enclosure. -/
def contactsAmong (around : List (ColliderKey × Box α)) : List (Moving α) → List Contact
  | [] => []
  | m :: rest => contactsOf around m rest ++ contactsAmong around rest

/-! ## Velocities at a contact -/

/-- A contact as the solver sees it: the axis along which the solids are pressed apart, the sign of
    the way from the first to the second, and the speed at which they spring apart. -/
structure Press (α : Type) where
  first : ColliderKey
  second : ColliderKey
  horizontal : Bool
  forward : Bool
  spring : α

/-- A coordinate of a vector. -/
def along (horizontal : Bool) (v : Vec α) : α := if horizontal then v.x else v.y

/-- A vector with something added to one coordinate. -/
def addAlong (horizontal : Bool) (v : Vec α) (d : α) : Vec α :=
  if horizontal then ⟨v.x + d, v.y⟩ else ⟨v.x, v.y + d⟩

/-- The body behind a collider, unless that stands around the canvas. -/
def moving? (ms : List (Moving α)) (c : ColliderKey) : Option (Body α) :=
  (ms.find? fun m => m.2.collider == c).map Prod.snd

/-- The box of a collider. -/
def solidBox? (around : List (ColliderKey × Box α)) (ms : List (Moving α)) (c : ColliderKey) :
    Option (Box α) :=
  match moving? ms c with
  | some b => some b.reach
  | none => around.lookup c

/-- The velocity of a collider. -/
def solidVelocity (ms : List (Moving α)) (c : ColliderKey) : Vec α :=
  match moving? ms c with
  | some b => if b.pinned then Vec.zero else b.velocity
  | none => Vec.zero

/-- The share of an impulse that a body takes, by its lack of mass. -/
def lightness (ms : List (Moving α)) (c : ColliderKey) : α :=
  match moving? ms c with
  | some b => if b.pinned then Scalar.zero else Scalar.one / (b.half.x * b.half.y)
  | none => Scalar.zero

/-- How much a collider bounces; the enclosure does not. -/
def bounce (ms : List (Moving α)) (c : ColliderKey) : α :=
  match moving? ms c with
  | some b => b.settings.restitution
  | none => Scalar.zero

/-- The speed at which the solids of a contact approach each other along its axis. -/
def approach (ms : List (Moving α)) (p : Press α) : α :=
  let v := along p.horizontal (solidVelocity ms p.first - solidVelocity ms p.second)
  if p.forward then v else -v

/-- A contact made ready for the solver: the axis of the least overlap, and the spring of a contact
    that is new or bounces without loss. -/
def press? (around : List (ColliderKey × Box α)) (ms : List (Moving α)) (known : List Contact)
    (c : Contact) : Option (Press α) := do
  let a ← solidBox? around ms c.first
  let b ← solidBox? around ms c.second
  let g := gaps a b
  let horizontal := Scalar.lessEq g.y g.x
  let forward := Scalar.lessEq (along horizontal a.center) (along horizontal b.center)
  let p : Press α := ⟨c.first, c.second, horizontal, forward, Scalar.zero⟩
  let restitution := (bounce ms c.first + bounce ms c.second) * Scalar.half
  let springs :=
    if known.contains c then Scalar.lessEq Scalar.one restitution
    else Scalar.less Scalar.zero restitution
  let speed := approach ms p
  if springs && Scalar.less Scalar.zero speed then some { p with spring := restitution * speed }
  else some p

/-- The gap of a contact along its axis. -/
def gapOf (around : List (ColliderKey × Box α)) (ms : List (Moving α)) (p : Press α) : α :=
  match solidBox? around ms p.first, solidBox? around ms p.second with
  | some a, some b => along p.horizontal (gaps a b)
  | _, _ => Scalar.zero

/-- The speed at which boxes that lie in each other are pushed apart. -/
def pushSpeed (gap : α) : α :=
  let depth := -gap - Scalar.ratio 1 1000
  Scalar.minOf (Scalar.ofInt 10) (Scalar.maxOf Scalar.zero (depth * Scalar.ratio 175 10))

/-- Adds to the velocity of a body along an axis; what stands around the canvas keeps still. -/
def kick (horizontal : Bool) (d : α) (c : ColliderKey) (ms : List (Moving α)) : List (Moving α) :=
  ms.map fun m =>
    if m.2.collider == c then
      (m.1, { m.2 with velocity := addAlong horizontal m.2.velocity d })
    else m

/-- Slows the approach at a contact down to a limit, sharing the change by lightness. -/
def limitApproach (limit : α) (p : Press α) (ms : List (Moving α)) : List (Moving α) :=
  let excess := approach ms p - limit
  let a := lightness ms p.first
  let b := lightness ms p.second
  if Scalar.less Scalar.zero excess && Scalar.less Scalar.zero (a + b) then
    let signed := if p.forward then excess else -excess
    kick p.horizontal (signed * b / (a + b)) p.second
      (kick p.horizontal (-(signed * a / (a + b))) p.first ms)
  else ms

/-- Applies all contacts, in order; `gapsBefore` are their gaps at the beginning of the substep. -/
def solve (h : α) (push : Bool) (presses : List (Press α × α)) (ms : List (Moving α)) :
    List (Moving α) :=
  presses.foldl
    (fun ms pg =>
      let room := Scalar.maxOf Scalar.zero pg.2 / h
      let out := if push then pushSpeed pg.2 else Scalar.zero
      limitApproach (room - pg.1.spring - out) pg.1 ms)
    ms

/-! ## Steps -/

/-- Adds acceleration. -/
def accelerate (gravity : Vec α) (h : α) (ms : List (Moving α)) : List (Moving α) :=
  ms.map fun m =>
    if m.2.pinned then m
    else
      (m.1,
        { m.2 with
          velocity := m.2.velocity + (gravity.scale m.2.settings.gravityScale).scale h })

/-- Adds velocity. -/
def advance (h : α) (ms : List (Moving α)) : List (Moving α) :=
  ms.map fun m =>
    if m.2.pinned then m
    else (m.1, { m.2 with center := m.2.center + m.2.velocity.scale h })

/-- The first bodies with the velocities of the second. -/
def withVelocities (ms vs : List (Moving α)) : List (Moving α) :=
  ms.zipWith (fun m v => (m.1, { m.2 with velocity := v.2.velocity })) vs

/-- One substep: what pushes boxes apart moves them but does not stay in their velocity. -/
def substep (around : List (ColliderKey × Box α)) (gravity : Vec α) (h : α) (presses : List (Press α))
    (ms : List (Moving α)) : List (Moving α) :=
  let ms := accelerate gravity h ms
  let measured := presses.map fun p => (p, gapOf around ms p)
  let moved := advance h (solve h true measured ms)
  withVelocities moved (solve h false measured ms)

/-- The bodies at rest that follow an actor. -/
def settle (ms : List (Moving α)) : List (Moving α) :=
  ms.map fun m =>
    (m.1,
      { m.2 with
        velocity := if m.2.pinned then Vec.zero else m.2.velocity
        outline := m.2.reach })

/-- The bodies after a step of `dt`, given the contacts at its beginning. -/
def run (s : Stage α) (dt : α) (now : List Contact) (ms : List (Moving α)) : List (Moving α) :=
  let around := s.enclosure
  let h := dt / Scalar.ofInt substeps
  let presses := now.filterMap (press? around ms s.contacts)
  settle (Nat.repeat (substep around s.physics.gravity h presses) substeps ms)

/-- The contacts that begin and end between two lists. -/
def changes (before after : List Contact) : List (Bool × Contact) :=
  (after.filter fun c => !before.contains c).map (fun c => (true, c))
    ++ (before.filter fun c => !after.contains c).map fun c => (false, c)

/-- What has become of the bodies after some time: where they are and how they move, the contacts
    that began and ended meanwhile, and those that last. -/
structure Passage (α : Type) where
  bodies : List (Moving α)
  changes : List (Bool × Contact)
  contacts : List Contact

/-- What becomes of the bodies in a step of `dt`. -/
def passage (s : Stage α) (dt : α) : Passage α :=
  let ms := s.bodies
  let now := contactsAmong s.enclosure ms
  let after := s.run dt now ms
  let later := contactsAmong s.enclosure after
  ⟨after, changes s.contacts now ++ changes now later, later⟩

/-- Moves the body of an actor to where another one is and as fast. -/
def storeBody (s : Stage α) (m : Moving α) : Stage α :=
  s.modifyBody m.1 fun b =>
    { b with
      center := m.2.center
      heading := m.2.heading
      velocity := m.2.velocity
      outline := m.2.outline }

/-- Takes note of a contact with the ground that begins or ends; reports a change of standing. -/
def noteGround (s : Stage α) (h : Handle) (began : Bool) : List (Handle × Bool) × Stage α :=
  match s.body? h with
  | none => ([], s)
  | some b =>
    let count := if began then b.grounds + 1 else b.grounds - 1
    let stands := decide (0 < count)
    let report := if stands == decide (0 < b.grounds) then [] else [(h, stands)]
    (report, s.modifyBody h fun b => { b with grounds := count })

/-- Takes note of a contact that begins or ends, as long as someone is behind both of its
    colliders. -/
def noteChange (acc : StepReport × Stage α) (change : Bool × Contact) : StepReport × Stage α :=
  match acc.2.solids.solid? change.2.first, acc.2.solids.solid? change.2.second with
  | some (.actor h), some .ground | some .ground, some (.actor h) =>
    let (report, s) := acc.2.noteGround h change.1
    ({ acc.1 with grounds := acc.1.grounds ++ report }, s)
  | some (.actor a), some (.actor b) =>
    ({ acc.1 with pairs := acc.1.pairs ++ [(change.1, a, b)] }, acc.2)
  | _, _ => acc

/-- Moves the bodies and takes note of the contacts. -/
def undergo (s : Stage α) (p : Passage α) : StepReport × Stage α :=
  p.changes.foldl noteChange
    (⟨[], []⟩, { p.bodies.foldl storeBody s with contacts := p.contacts })

/-- Pins the bodies of attached actors to them. -/
def pinAttached (s : Stage α) : Stage α :=
  s.actors.keys.foldl (fun s h => if (s.parent? h).isSome then s.carryBody h else s) s

/-- Moves an actor without a parent to its body. -/
def followBody (a : Actor α) : Actor α :=
  match a.parent, a.body with
  | none, some b =>
    { a with
      placement := { a.placement with offset := b.center, rotation := b.rotation } }
  | _, _ => a

/-- The phases of a step. -/
def stepPhases : List String :=
  ["sys_pin_attached_bodies", "sys_apply_custom_gravity", "sys_step_rapier", "sys_sync_from_rapier"]

/-- One step of physics, given what becomes of the bodies in a time. -/
def stepBy (engine : Stage α → α → Passage α) (s : Stage α) (dt : α) : StepReport × Stage α :=
  let s := stepPhases.foldl record s.pinAttached
  let (report, s) :=
    if Scalar.less Scalar.zero dt then s.undergo (engine s dt) else (⟨[], []⟩, s)
  (report, { s with actors := ⟨s.actors.entries.map fun e => (e.1, followBody e.2)⟩ })

/-- One step of physics. -/
def step (s : Stage α) (dt : α) : StepReport × Stage α := s.stepBy passage dt

end Stage

end BlockStage
