/-
  What can be done to one entity of a session.

  Entities are named by id.  A call that names no live entity changes nothing and says so.
-/
import BlockStage.Session.Basic

namespace BlockStage

/-- Why a call about entities was refused. -/
inductive SessionError where
  | spawn (e : SpawnError)
  | register (id : String) (e : SpawnError)
  | noEntityForBehaviors (id : String)
  | noEntityForTemplate (id : String)
  | cloneAsTemplate (id : String)
  | noTemplate (source prototype : String)
  | cloneLimit (prototype : String) (live limit : Nat)
  | cloneSpawn (source : String) (e : SpawnError)
  | noEntityToAttach (id : String)
  | attach (child parent : String) (e : AttachError)
deriving Repr, DecidableEq

/-- The message of a refusal. -/
def SessionError.message : SessionError → String
  | .spawn e => e.message
  | .register id e => "registering entity '" ++ id ++ "': " ++ e.message
  | .noEntityForBehaviors id => "cannot register behaviors: no entity '" ++ id ++ "'"
  | .noEntityForTemplate id => "cannot save template: no entity '" ++ id ++ "'"
  | .cloneAsTemplate id => "cannot save template for clone '" ++ id ++ "'"
  | .noTemplate source prototype =>
    "cannot clone '" ++ source ++ "': no template for '" ++ prototype ++ "'"
  | .cloneLimit prototype live limit =>
    "clone of '" ++ prototype ++ "' rejected: " ++ toString live ++ " clones already live (limit "
      ++ toString limit ++ ")"
  | .cloneSpawn source e => "cannot clone '" ++ source ++ "': " ++ e.message
  | .noEntityToAttach id => "attach: no entity '" ++ id ++ "'"
  | .attach child parent e => "attach " ++ child ++ " to " ++ parent ++ ": " ++ e.message

namespace Session

/-- Does something to the actor of an id. -/
def onStage (s : Session) (id : String)
    (f : Stage Float32 → Handle → Bool × Stage Float32) : Bool × Session :=
  match s.handle? id with
  | some h =>
    let r := f s.stage h
    (r.1, { s with stage := r.2 })
  | none => (false, s)

/-! ## Motion -/

/-- Moves an entity to a point of user space. -/
def place (s : Session) (id : String) (p : Vec Float32) : Bool × Session :=
  s.onStage id fun st h => st.setPosition h p

/-- Moves an entity in its direction. -/
def moveSteps (s : Session) (id : String) (steps : Float32) : Bool × Session :=
  match s.position? id, s.direction? id with
  | some p, some d => s.place id (p + (Vec.ofAngle (d * Scalar.radians)).scale steps)
  | _, _ => (false, s)

/-- Turns an entity to a direction in degrees. -/
def pointInDirection (s : Session) (id : String) (degrees : Float32) : Bool × Session :=
  s.onStage id fun st h => st.setDirection h degrees

/-- Turns an entity by an angle in degrees. -/
def turn (s : Session) (id : String) (degrees : Float32) : Bool × Session :=
  match s.direction? id with
  | some d => s.pointInDirection id (d + degrees)
  | none => (false, s)

/-- Moves an entity to the given coordinates; a missing one stays. -/
def goTo (s : Session) (id : String) (x y : Option Float32) : Bool × Session :=
  match s.position? id with
  | some p => s.place id ⟨x.getD p.x, y.getD p.y⟩
  | none => (false, s)

/-- Moves an entity by an offset. -/
def changePosition (s : Session) (id : String) (offset : Vec Float32) : Bool × Session :=
  match s.position? id with
  | some p => s.place id (p + offset)
  | none => (false, s)

/-- Where a target is: the pointer or an entity. -/
def whereIs? (s : Session) (target : String) : Option (Vec Float32) :=
  let name := trimText target
  if name = Token.pointer || name = Token.mouse then some s.pointer else s.position? name

/-- Turns an entity towards a target, unless it is there already. -/
def pointTowards (s : Session) (id target : String) : Bool × Session :=
  match s.position? id, s.whereIs? target with
  | some p, some goal =>
    let d := goal - p
    if d.lengthSquared ≤ Scalar.tiny then (true, s)
    else s.pointInDirection id (Scalar.angle d.y d.x * Scalar.degrees)
  | _, _ => (false, s)

/-- Moves an entity to a target. -/
def goToTarget (s : Session) (id target : String) : Bool × Session :=
  match s.whereIs? target with
  | some goal => s.place id goal
  | none => (false, s)

/-- Begins a glide.  Without duration the entity is moved at once. -/
def beginGlide (s : Session) (id : String) (seconds : Float) (goal : Vec Float32) :
    Option Glide × Session :=
  match s.position? id with
  | none => (none, s)
  | some p =>
    if seconds ≤ 0 then (none, (s.place id goal).2) else (some ⟨p, goal, s.now, seconds⟩, s)

/-! ## Physics -/

/-- Gives an entity a body. -/
def enablePhysics (s : Session) (id : String) : Bool × Session :=
  let r := s.onStage id fun st h => st.enablePhysics h ((st.bodySettings? h).getD .usual)
  if r.1 then (true, r.2.note .action (id ++ " physics enabled")) else r

/-- Gives an entity's body a velocity. -/
def setVelocity (s : Session) (id : String) (v : Vec Float32) : Bool × Session :=
  s.onStage id fun st h => st.setVelocity h v

/-- Scales the pull of gravity on an entity's body. -/
def setGravityScale (s : Session) (id : String) (scale : Float32) : Bool × Session :=
  s.onStage id fun st h => st.setGravityScale h scale

/-! ## Looks -/

/-- Shows or hides an entity. -/
def setVisible (s : Session) (id : String) (visible : Bool) : Bool × Session :=
  s.onStage id fun st h => st.setVisible h visible

/-- Notes that a body does not follow a change of costume. -/
def noteCostume (s : Session) (id : String) : Session :=
  match s.handle? id with
  | some h =>
    if s.stage.hasBody h then
      s.note .info (id ++ " changed costume; its physics body keeps the previous size")
    else s
  | none => s

/-- Puts on the costume with an id or name. -/
def switchCostume (s : Session) (id key : String) : Bool × Session :=
  let r := s.onStage id fun st h => st.switchCostume h key
  if r.1 then (true, r.2.noteCostume id) else r

/-- Puts on the next costume. -/
def nextCostume (s : Session) (id : String) : Bool × Session :=
  let r := s.onStage id fun st h => st.nextCostume h
  if r.1 then (true, r.2.noteCostume id) else r

/-- Scales an entity evenly; a scale is never negative. -/
def setScale (s : Session) (id : String) (scale : Float32) : Bool × Session :=
  s.onStage id fun st h => st.setScale h (Vec.both (Single.max scale 0))

/-- Adds to the scale of an entity. -/
def changeScale (s : Session) (id : String) (delta : Float32) : Bool × Session :=
  match s.scale? id with
  | some current => s.setScale id (current + delta)
  | none => (false, s)

/-- Puts an entity at a depth. -/
def setDepth (s : Session) (id : String) (depth : Int) : Bool × Session :=
  s.onStage id fun st h => st.setDepth h depth

/-! ## Sound -/

/-- The sound with an id; without one, the first with that name in any letter case. -/
def sound? (s : Session) (key : String) : Option Sound :=
  match s.sounds.get? key with
  | some x => some x
  | none => s.sounds.values.find? fun x => eqIgnoringAsciiCase x.name key

/-- Ends all playbacks. -/
def stopAllSounds (s : Session) : Session := { s with player := s.player.stopAll.2 }

/-! ## Attachments -/

/-- Attaches an entity to another, keeping it in place on the canvas. -/
def attach (s : Session) (child parent : String) : Except SessionError Unit × Session :=
  match s.handle? child, s.handle? parent with
  | none, _ => (.error (.noEntityToAttach child), s)
  | _, none => (.error (.noEntityToAttach parent), s)
  | some c, some p =>
    match s.stage.attach c p with
    | (.ok _, stage) =>
      (.ok (), { s with stage := stage }.note .action (child ++ " attached to " ++ parent))
    | (.error e, stage) => (.error (.attach child parent e), { s with stage := stage })

/-- Takes an entity off its parent. -/
def detach (s : Session) (child : String) : Bool × Session :=
  let r := s.onStage child fun st h => st.detach h
  if r.1 then (true, r.2.note .action (child ++ " detached")) else r

/-! ## Variables, messages and scenes -/

/-- Writes a variable. -/
def setVariable (s : Session) (id key : String) (v : Value) : Bool × Session :=
  let r := s.store.set id key v
  (r.1, { s with store := r.2 })

/-- Adds to a variable. -/
def changeVariable (s : Session) (id key : String) (delta : Float) : Bool × Session :=
  let r := s.store.changeBy id key delta
  (r.1, { s with store := r.2 })

/-- Queues a message for the next update; a blank one is dropped. -/
def broadcast (s : Session) (message : String) : Session :=
  let name := trimText message
  if name = "" then s
  else { s with inbox := s.inbox ++ [name] }.note .event ("broadcast " ++ name)

/-- Asks the host for another scene. -/
def requestScene (s : Session) (scene : String) : Session :=
  ({ s with pendingScene := some scene }.emit (.sceneSwitchRequested scene)).note .event
    ("scene switch to " ++ scene ++ " requested")

/-- Resets the timer. -/
def resetTimer (s : Session) : Session := { s with clock := s.clock.resetTimer }

/-! ## Coming and going -/

/-- Brings an entity on stage, with an empty catalog and no local values. -/
def enroll (s : Session) (d : Spawn Float32) : Except SpawnError Session :=
  match s.stage.spawn d with
  | .error e => .error e
  | .ok (_, stage) =>
    .ok
      ({ s with
          stage := stage
          catalogs := s.catalogs.insert d.id .empty
          store := s.store.addLocals d.id }.emit (.registered d.id))

/-- Takes an entity off the stage, with its behaviors and local values; its template stays. -/
def deleteEntity (s : Session) (id : String) : Bool × Session :=
  match s.stage.despawn id with
  | (false, stage) => (false, { s with stage := stage })
  | (true, stage) =>
    (true,
      ({ s with
          stage := stage
          catalogs := s.catalogs.erase id
          store := (s.store.dropLocals id).2 }.emit (.deleted id)).note .action
        (id ++ " deleted"))

/-- Stops the scripts of an entity; its tasks end when they would go on. -/
def stopEntity (s : Session) (id : String) : Bool × Session :=
  match s.handle? id with
  | none => (false, s)
  | some h =>
    (true,
      { s with stage := s.stage.modify h fun a => { a with stopped := true } }.note .action
        (id ++ " stopped"))

/-- Stops everything: all entities are marked as stopped and all tasks are dropped. -/
def stopAll (s : Session) : Session :=
  if !s.running then s
  else
    ({ s with
        running := false
        stage := s.stage.setAllStopped true
        scheduler := .idle
        loopsActive := false
        inbox := []
        cloneStarts := []
        player := s.player.stopAll.2 }.emit .stopped).note .info "stopped"

end Session

/-- Plays a sound by id or name; answers its handle. -/
def Play.playSound (id key : String) : Play (Option Nat) := do
  match ← Play.ask fun s => s.sound? key with
  | none => return none
  | some sound =>
    let played ← Play.changing fun s =>
      let r := s.player.play id sound s.now
      (r.1, { s with player := r.2 })
    match played with
    | .error fault => throw fault
    | .ok (handle, _) =>
      Play.change fun s => s.note .action (id ++ " played sound " ++ sound.id)
      return some handle

end BlockStage
