/-
  Scripts in a session: actions, launching, and clones.

  A clone's start scripts run as soon as it has been made, and they may ask for more clones.  Those
  are queued and started one after the other by the call that made the first, so start scripts
  never nest.  Hence two layers: scripts that run while the queue is being worked off only add to
  it, and all other scripts work it off themselves.
-/
import BlockStage.Session.Entities
import BlockStage.Session.Evaluation

namespace BlockStage

/-! ## Making clones -/

/-- What stands between the prototype's id and the number of a clone. -/
def cloneSeparator : String := "__clone_"

/-- The text before the first occurrence of a word, if it occurs. -/
def textBefore? (word : List Char) : List Char → Option (List Char)
  | [] => if word = [] then some [] else none
  | c :: rest =>
    if word.isPrefixOf (c :: rest) then some []
    else (textBefore? word rest).map fun before => c :: before

namespace Session

/-- The prototype behind an id: of a live clone the one it was made from, of any other live entity
    itself, and of an id that nobody bears the part before the separator, unless that is empty. -/
def prototypeOf (s : Session) (source : String) : String :=
  match (s.handle? source).bind s.stage.actor? with
  | some a => a.prototype.getD source
  | none =>
    match textBefore? cloneSeparator.toList source.toList with
    | some (c :: before) => String.ofList (c :: before)
    | _ => source

/-- Makes a template of a prototype as it is now. -/
def saveTemplate (s : Session) (id : String) : Except SessionError Session :=
  match s.handle? id with
  | none => .error (.noEntityForTemplate id)
  | some h =>
    if s.stage.isClone h then .error (.cloneAsTemplate id)
    else
      match s.stage.spawnOf? h with
      | none => .error (.noEntityForTemplate id)
      | some spawn =>
        let catalog := (s.catalogs.get? id).getD .empty
        .ok
          { s with
            templates := s.templates.insert id ⟨{ spawn with prototype := none }, catalog⟩ }

/-- What a clone is spawned from: the template, placed and drawn like the live prototype. -/
def cloneSpawn (s : Session) (t : Template) (prototype id : String) : Spawn Float32 :=
  let base := { t.spawn with id := id, prototype := some prototype }
  match (s.handle? prototype).bind s.stage.spawnOf? with
  | some current =>
    { base with
      position := current.position
      rotation := current.rotation
      scale := current.scale
      costume := current.costume
      visible := current.visible
      depth := current.depth }
  | none => base

/-- Gives a clone that has come on stage its catalog and local values. -/
def settleClone (s : Session) (t : Template) (prototype id : String) (stage : Stage Float32) :
    Session :=
  let locals :=
    if (s.handle? prototype).isSome then s.store.copyLocals prototype id
    else s.store.addLocals id
  let s := { s with stage := stage, catalogs := s.catalogs.insert id t.catalog, store := locals }
  (s.emit (.cloneSpawned id prototype)).note .action
    ("clone " ++ id ++ " created from " ++ prototype)

/-- Queues the start scripts of a clone, while running. -/
def queueStarts (s : Session) (id : String) : Session :=
  if s.running then { s with cloneStarts := s.cloneStarts ++ [id] } else s

/-- Brings a clone on stage and queues its start scripts. -/
def spawnClone (s : Session) (t : Template) (source prototype id : String) :
    Except SessionError String × Session :=
  match s.stage.spawn (s.cloneSpawn t prototype id) with
  | .error e => (.error (.cloneSpawn source e), s)
  | .ok (_, stage) => (.ok id, (s.settleClone t prototype id stage).queueStarts id)

/-- Makes a clone.  Its number is used up even when it cannot be spawned. -/
def addClone (s : Session) (source : String) : Except SessionError String × Session :=
  let prototype := s.prototypeOf source
  match s.templates.get? prototype with
  | none => (.error (.noTemplate source prototype), s)
  | some template =>
    let live := s.liveClones
    if s.config.cloneLimit ≤ live then
      (.error (.cloneLimit prototype live s.config.cloneLimit),
        s.emit (.cloneRejected prototype live))
    else
      let serial := s.cloneSerial + 1
      { s with cloneSerial := serial }.spawnClone template source prototype
        (prototype ++ cloneSeparator ++ toString serial)

/-- Makes a clone and notes a refusal. -/
def requestClone (s : Session) (source : String) : Except SessionError String × Session :=
  match s.addClone source with
  | (.error e, s) => (.error e, s.note .error e.message)
  | r => r

end Session

namespace Play

/-! ## Actions -/

/-- Notes that a block could not do its work and lets the script go on. -/
def complain (entity block detail : String) : Play Flow := do
  change fun s => s.note .error (block ++ " (" ++ entity ++ "): " ++ detail)
  return .proceed

/-- Changes the session and lets the script go on. -/
def doing {α : Type} (f : Session → α × Session) : Play Flow := do
  change fun s => (f s).2
  return .proceed

/-- Changes the session, notes if nothing came of it, and lets the script go on. -/
def trying (entity block detail : String) (f : Session → Bool × Session) : Play Flow := do
  if ← changing f then return .proceed
  else complain entity block detail

/-- Changes the body of the entity, which must have one. -/
def withBody (entity : String) (f : Session → Bool × Session) : Play Flow := do
  if ← changing f then return .proceed
  else return .fail ("'" ++ entity ++ "' has no physics body")

/-- The number of an expression. -/
def number (entity : String) (e : Expr) : Play Float := do
  return (← evaluate entity e).toNumber

/-- The number of an expression, rounded to four bytes. -/
def single (entity : String) (e : Expr) : Play Float32 := do
  return narrow (← number entity e)

/-- The text of an expression. -/
def text (entity : String) (e : Expr) : Play String := do
  return (← evaluate entity e).toText

/-- Plays a sound and waits for its end if asked to. -/
def sound (entity key : String) (wait : Bool) : Play Flow := do
  match ← playSound entity key with
  | some handle => return if wait then .pause (.playback handle) else .proceed
  | none => complain entity "play sound" ("unknown sound '" ++ key ++ "'")

/-- Carries out an action for an entity; `clone` makes clones. -/
def perform (clone : String → Play Unit) (entity : String) (a : Action) : Play Flow := do
  match a with
  | .moveSteps steps =>
    let n ← single entity steps
    doing fun s => s.moveSteps entity n
  | .turn degrees =>
    let d ← single entity degrees
    doing fun s => s.turn entity d
  | .goTo x y =>
    let x ← single entity x
    let y ← single entity y
    doing fun s => s.goTo entity (some x) (some y)
  | .changeX amount =>
    let d ← single entity amount
    doing fun s => s.changePosition entity ⟨d, 0⟩
  | .changeY amount =>
    let d ← single entity amount
    doing fun s => s.changePosition entity ⟨0, d⟩
  | .setX x =>
    let x ← single entity x
    trying entity "set x" ("cannot move to " ++ singleText x) fun s => s.goTo entity (some x) none
  | .setY y =>
    let y ← single entity y
    trying entity "set y" ("cannot move to " ++ singleText y) fun s => s.goTo entity none (some y)
  | .pointDirection degrees =>
    let d ← single entity degrees
    trying entity "point in direction" ("cannot face " ++ singleText d) fun s =>
      s.pointInDirection entity d
  | .pointTowards target =>
    let t ← text entity target
    trying entity "point towards" ("target '" ++ t ++ "' not found") fun s =>
      s.pointTowards entity t
  | .goToTarget target =>
    let t ← text entity target
    trying entity "go to" ("target '" ++ t ++ "' not found") fun s => s.goToTarget entity t
  | .glide seconds x y =>
    let duration ← number entity seconds
    let x ← single entity x
    let y ← single entity y
    match ← changing fun s => s.beginGlide entity duration ⟨x, y⟩ with
    | some g => return .pause (.glide g)
    | none => return .proceed
  | .enablePhysics => doing fun s => s.enablePhysics entity
  | .setVelocity x y =>
    let x ← single entity x
    let y ← single entity y
    withBody entity fun s => s.setVelocity entity ⟨x, y⟩
  | .setGravityScale scale =>
    let k ← single entity scale
    withBody entity fun s => s.setGravityScale entity k
  | .setVisible visible => doing fun s => s.setVisible entity visible
  | .switchCostume key =>
    let key ← text entity key
    trying entity "switch costume" ("unknown costume '" ++ key ++ "'") fun s =>
      s.switchCostume entity key
  | .nextCostume => doing fun s => s.nextCostume entity
  | .setScale scale =>
    let k ← single entity scale
    doing fun s => s.setScale entity k
  | .changeScale delta =>
    let d ← single entity delta
    doing fun s => s.changeScale entity d
  | .setDepth depth =>
    let d ← number entity depth
    doing fun s => s.setDepth entity (toInt32 (roundOf d))
  | .playSound key wait =>
    let key ← text entity key
    sound entity key wait
  | .stopAllSounds =>
    change Session.stopAllSounds
    return .proceed
  | .wait seconds =>
    let d ← number entity seconds
    let now ← ask Session.now
    return .pause (if 0 < d then .time (now + d) else .tick)
  | .stopAll =>
    change Session.stopAll
    return .finish
  | .stopSelf =>
    change fun s => (s.stopEntity entity).2
    return .finish
  | .createClone source =>
    let raw ← text entity source
    clone (if raw = "" || raw = Token.myself then entity else raw)
    return .proceed
  | .deleteSelf =>
    change fun s => (s.deleteEntity entity).2
    return .finish
  | .broadcast message =>
    let m ← text entity message
    if isBlankText m then complain entity "broadcast" "empty message name"
    else
      change fun s => s.broadcast m
      return .proceed
  | .attachTo parent =>
    let p ← text entity parent
    match ← changing fun s => s.attach entity p with
    | .ok _ => return .proceed
    | .error e => return .fail e.message
  | .detach => doing fun s => s.detach entity
  | .switchScene scene =>
    let name ← text entity scene
    if isBlankText name then complain entity "switch scene" "no scene selected"
    else
      change fun s => s.requestScene name
      return .proceed
  | .resetTimer =>
    change Session.resetTimer
    return .proceed
  | .setVariable key value =>
    let v ← evaluate entity value
    trying entity "set variable" ("unknown variable '" ++ key ++ "'") fun s =>
      s.setVariable entity key v
  | .changeVariable key delta =>
    let d ← number entity delta
    trying entity "change variable" ("unknown variable '" ++ key ++ "'") fun s =>
      s.changeVariable entity key d
  | .log message =>
    let m ← text entity message
    change fun s => s.note .user (entity ++ ": " ++ m)
    return .proceed

/-! ## Hosts for scripts -/

/-- Adds a looping behavior to the catalog of an entity. -/
def addLoop (entity : String) (loop : Nat) (body : List Stmt) : Play Unit :=
  change fun s =>
    match s.catalogs.get? entity with
    | some c => { s with catalogs := s.catalogs.insert entity (c.register ⟨loop, .forever, body⟩).2 }
    | none => s

/-- The session as the surroundings of an entity's script. -/
def host (clone : String → Play Unit) (entity : String) : Host Play where
  alive := ask fun s => s.mayRun entity
  eval := evaluate entity
  perform := perform clone entity
  count name i := change fun s => (s.setVariable entity name (.number (doubleOfInt i))).2
  addLoop := addLoop entity
  report message := change fun s => s.note .error (entity ++ " aborted a script: " ++ message)

/-- Runs a task until it pauses or ends; answers the paused task. -/
def runSlice (clone : String → Play Unit) (t : Task) : Play (Option Task) := do
  match ← (host clone t.entity).run t.frames with
  | .finished => return none
  | .paused frames pause => return some { t with frames := frames, waiting := some pause }

/-- Changes the scheduler. -/
def schedule (f : Scheduler → Scheduler) : Play Unit :=
  change fun s => { s with scheduler := f s.scheduler }

/-- Runs a behavior for an entity now, unless the session is idle or an earlier instance is under
    way; answers whether it was run. -/
def launchWith (clone : String → Play Unit) (entity : String) (b : Behavior) : Play Bool := do
  let s ← get
  if !s.running || s.scheduler.isActive entity b.id then return false
  else
    schedule fun q => q.activate entity b.id
    match ← runSlice clone (Task.new entity b) with
    | some t => schedule fun q => { q with waiting := q.waiting ++ [t] }
    | none => schedule fun q => q.deactivate entity b.id
    return true

/-! ## Working off the queue of clones -/

/-- Makes a clone whose start scripts wait in the queue. -/
def queueClone (source : String) : Play Unit := do
  discard (changing fun s => s.requestClone source)

/-- Does a behavior run when a clone starts? -/
def startsClone : Trigger → Bool
  | .start => true
  | .cloneStart => true
  | _ => false

/-- Takes the next clone from the queue. -/
def nextCloneStart : Play (Option String) :=
  changing fun s =>
    match s.cloneStarts with
    | [] => (none, s)
    | id :: rest => (some id, { s with cloneStarts := rest })

/-- Runs the start scripts of the queued clones, in order, also of those queued meanwhile. -/
def startClones : Nat → Play Unit
  | 0 => throw .budgetExhausted
  | budget + 1 => do
    match ← nextCloneStart with
    | none => return ()
    | some id =>
      let starts ← ask fun s => s.behaviors id startsClone
      starts.forM fun b => discard (launchWith queueClone id b)
      startClones budget

/-- Works off the queue unless that is being done already. -/
def startQueuedClones : Play Unit := do
  let s ← get
  if s.running && !s.draining then
    change fun s => { s with draining := true }
    startClones s.cloneBudget
    change fun s => { s with draining := false }

/-- Makes a clone of the prototype behind an id and, while running, runs its start scripts. -/
def createClone (source : String) : Play (Except SessionError String) := do
  match ← changing fun s => s.requestClone source with
  | .error e => return .error e
  | .ok id =>
    startQueuedClones
    return .ok id

/-- Makes a clone for a script. -/
def makeClone (source : String) : Play Unit := discard (createClone source)

/-- Runs a behavior for an entity now. -/
def launch (entity : String) (b : Behavior) : Play Bool := launchWith makeClone entity b

end Play

end BlockStage
