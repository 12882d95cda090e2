/-
  The watched session.

  Every call is told here once more, step by step as it is carried out, so that its moments are
  seen.  That nothing but the watching is added is `Call.told`.
-/
import BlockStage.Proofs.Chronicle.Basic

namespace BlockStage

namespace Chronicle

/-! ## Scripts -/

/-- Queues a message. -/
def post (message : String) : Chronicle Unit :=
  let p := Play.change fun s => s.broadcast message
  if trimText message = "" then p else seen (.post (trimText message)) p

/-- Carries out an action for an entity; `clone` makes clones. -/
def perform (clone : String → Chronicle Unit) (entity : String) (behavior : Nat) :
    Action → Chronicle Flow
  | .createClone source => do
    mark (.work entity behavior (.act (.createClone source)))
    let raw ← Play.text entity source
    clone (if raw = "" || raw = Token.myself then entity else raw)
    return .proceed
  | .broadcast message => do
    mark (.work entity behavior (.act (.broadcast message)))
    let m ← Play.text entity message
    if isBlankText m then Play.complain entity "broadcast" "empty message name"
    else
      post m
      return .proceed
  | a => seen (.work entity behavior (.act a)) (Play.perform (fun _ => return ()) entity a)

/-- The session as the surroundings of a script. -/
def host (clone : String → Chronicle Unit) (entity : String) (behavior : Nat) : Host Chronicle :=
  let h := Play.host (fun _ => return ()) entity
  { alive := do
      let alive ← h.alive
      if alive then mark (.work entity behavior .step)
      return alive
    eval e := seen (.work entity behavior (.test e)) (h.eval e)
    perform := perform clone entity behavior
    count name i := seen (.work entity behavior (.count name i)) (h.count name i)
    addLoop loop body := seen (.work entity behavior (.loop loop body)) (h.addLoop loop body)
    report message := h.report message }

/-- Runs a task until it pauses or ends; answers the paused task. -/
def slice (clone : String → Chronicle Unit) (t : Task) : Chronicle (Option Task) := do
  match ← (host clone t.entity t.behavior).run t.frames with
  | .finished => return none
  | .paused frames pause => return some { t with frames := frames, waiting := some pause }

/-- Runs a behavior for an entity now, unless the session is idle or an earlier instance is under
    way; answers whether it was run. -/
def launchWith (clone : String → Chronicle Unit) (entity : String) (b : Behavior) :
    Chronicle Bool := do
  let s ← get
  if !s.running || s.scheduler.isActive entity b.id then return false
  else
    seen (.launch entity b) (Play.schedule fun q => q.activate entity b.id)
    match ← slice clone (Task.new entity b) with
    | some t => Play.schedule fun q => { q with waiting := q.waiting ++ [t] }
    | none => Play.schedule fun q => q.deactivate entity b.id
    return true

/-! ## Clones -/

/-- Asks for a clone. -/
def request (source : String) : Chronicle (Except SessionError String) :=
  seen (.clone source) (Play.changing fun s => s.requestClone source)

/-- Makes a clone whose start scripts wait in the queue. -/
def queueClone (source : String) : Chronicle Unit := discard (request source)

/-- Runs the start scripts of the queued clones, in order, also of those queued meanwhile. -/
def startClones : Nat → Chronicle Unit
  | 0 => (throw .budgetExhausted : Play Unit)
  | budget + 1 => do
    match ← Play.nextCloneStart with
    | none => return ()
    | some id =>
      let starts ← Play.ask fun s => s.behaviors id Play.startsClone
      starts.forM fun b => discard (launchWith queueClone id b)
      startClones budget

/-- Works off the queue unless that is being done already. -/
def startQueuedClones : Chronicle Unit := do
  let s ← get
  if s.running && !s.draining then
    Play.change fun s => { s with draining := true }
    startClones s.cloneBudget
    Play.change fun s => { s with draining := false }

/-- Makes a clone of the prototype behind an id and, while running, runs its start scripts. -/
def createClone (source : String) : Chronicle (Except SessionError String) := do
  match ← request source with
  | .error e => return .error e
  | .ok id =>
    startQueuedClones
    return .ok id

/-- Makes a clone for a script. -/
def makeClone (source : String) : Chronicle Unit := discard (createClone source)

/-- Runs a behavior for an entity now. -/
def launch (entity : String) (b : Behavior) : Chronicle Bool := launchWith makeClone entity b

/-! ## Tasks -/

/-- Looks at what a task waits for: may it go on? -/
def look (t : Task) : Chronicle Bool :=
  seen (.work t.entity t.behavior (.look t.waiting)) (Play.isReady t)

/-- Lets one paused task go on; answers what is left of it. -/
def resume (t : Task) : Chronicle (Option Task) := do
  if !(← Play.ask fun s => s.mayRun t.entity) then
    Play.retire t
    return none
  else if !(← look t) then return some t
  else
    match ← slice makeClone t with
    | some t => return some t
    | none =>
      Play.retire t
      return none

/-- Lets paused tasks go on in order; answers those that still wait. -/
def resumeEach : List Task → Chronicle (List Task)
  | [] => return []
  | t :: rest => do
    let first ← resume t
    let others ← resumeEach rest
    return first.toList ++ others

/-- Lets all paused tasks go on. -/
def resumeAll : Chronicle Unit := do
  let still ← resumeEach (← Play.takeWaiting)
  if ← Play.ask Session.running then
    Play.schedule fun q => { q with waiting := still ++ q.waiting }

/-! ## The start phase -/

/-- Notes where a start script has paused. -/
def park (t : Task) : Chronicle Unit :=
  seen (.parked t) (Play.schedule fun q => { q with startTask := some t })

/-- Runs start scripts in order until one pauses. -/
def runStarts : List (String × Behavior) → Chronicle Unit
  | [] => do
    if ← Play.ask Session.running then
      seen .complete do
        Play.schedule fun q => { q with starting := false }
        Play.change Play.finishStart
    else Play.schedule fun _ => .idle
  | (entity, b) :: rest => do
    if ← Play.ask Session.running then
      seen (.opened entity b) (Play.schedule fun q => { q with startQueue := rest })
      match ← slice makeClone (Task.new entity b) with
      | some t => park t
      | none =>
        mark (.closed entity b.id)
        runStarts rest
    else Play.schedule fun _ => .idle

/-- Lets a start script go on, and once it is over those after it. -/
def continueStart (t : Task) (rest : List (String × Behavior)) : Chronicle Unit := do
  match ← slice makeClone t with
  | some t => park t
  | none =>
    mark (.closed t.entity t.behavior)
    runStarts rest

/-- Takes the start phase as far as it goes in this update. -/
def advanceStart : Chronicle Unit := do
  let s ← get
  if !s.scheduler.starting then return ()
  else if !s.running then Play.schedule fun _ => .idle
  else
    match s.scheduler.startTask with
    | none => runStarts s.scheduler.startQueue
    | some t =>
      seen (.fetched t) (Play.schedule fun q => { q with startTask := none })
      let waits ← if s.mayRun t.entity then (do return !(← look t)) else pure false
      if waits then park t
      else continueStart t s.scheduler.startQueue

/-! ## Delivery -/

/-- Launches behaviors of one entity in order, as long as it takes part; answers how many were
    launched. -/
def launchEach (entity : String) : List Behavior → Chronicle Nat
  | [] => return 0
  | b :: rest => do
    let launched ← if ← Play.ask fun s => s.isLive entity then launch entity b else pure false
    let others ← launchEach entity rest
    return (if launched then 1 else 0) + others

/-- Launches the behaviors with a fitting trigger of the given entities. -/
def launchAll (test : Trigger → Bool) : List String → Chronicle Unit
  | [] => return ()
  | id :: rest => do
    discard (launchEach id (← Play.ask fun s => s.behaviors id test))
    launchAll test rest

/-- Runs looping behaviors, once the start phase is over. -/
def runLoops : Chronicle Unit := do
  let s ← get
  if s.loopsActive then launchAll (fun t => t == .forever) (s.listeners .forever)

/-- Launches a behavior unless it has been triggered in this update. -/
def fireOnce (id : String) (b : Behavior) (fired : Play.Fired) : Chronicle Play.Fired := do
  if fired.contains (id, b.id) then return fired
  else
    discard (launch id b)
    return fired ++ [(id, b.id)]

/-- Triggers the behaviors of one side of a touching pair. -/
def deliverSide (id : String) (viewer other : Handle) :
    List Behavior → Play.Fired → Chronicle Play.Fired
  | [], fired => return fired
  | b :: rest, fired => do
    let s ← get
    let wanted := match b.trigger with
      | .touching target => s.isLive id && s.stage.isMeant viewer other target
      | _ => false
    let fired ← if wanted then fireOnce id b fired else pure fired
    deliverSide id viewer other rest fired

/-- Delivers touching pairs in order; answers nothing when the session has stopped meanwhile. -/
def deliverPairs :
    List ((String × Handle) × (String × Handle)) → Play.Fired → Chronicle (Option Play.Fired)
  | [], fired => return some fired
  | (a, b) :: rest, fired => do
    let s ← get
    if !s.running then return none
    else
      let key := Event.sortedPair a.1 b.1
      if s.touching.contains key then deliverPairs rest fired
      else
        Play.change fun s =>
          let s := { s with touching := s.touching ++ [key] }
          if s.touchingBefore.contains key then s else s.emit (.touching a.1 b.1)
        let ofA ← Play.ask fun s => s.behaviors a.1 Play.touchesEntity
        let fired ← deliverSide a.1 a.2 b.2 ofA fired
        let ofB ← Play.ask fun s => s.behaviors b.1 Play.touchesEntity
        let fired ← deliverSide b.1 b.2 a.2 ofB fired
        deliverPairs rest fired

/-- Triggers the behaviors of an entity that wait for a touch of the world. -/
def deliverWorld (id : String) (h : Handle) :
    List Behavior → Play.Fired → Chronicle Play.Fired
  | [], fired => return fired
  | b :: rest, fired => do
    let s ← get
    if !s.running || !s.isLive id then return fired
    else
      let touches := match b.trigger with
        | .touching target => s.stage.isTouching h target s.input.pointer
        | _ => false
      let fired ← if touches then fireOnce id b fired else pure fired
      deliverWorld id h rest fired

/-- Triggers the behaviors of all listeners that wait for a touch of the world. -/
def deliverWorlds : List (String × Handle) → Play.Fired → Chronicle Unit
  | [], _ => return ()
  | (id, h) :: rest, fired => do
    let behaviors ← Play.ask fun s => s.behaviors id Play.touchesWorld
    let fired ← deliverWorld id h behaviors fired
    deliverWorlds rest fired

/-- Delivers touches: each overlapping pair once, to both sides, then the world to each listener. -/
def deliverTouches : Chronicle Unit := do
  Play.change fun s => { s with touching := [] }
  let s ← get
  let ids := s.listeners .touching
  if ids.isEmpty then Play.change fun s => { s with touchingBefore := [] }
  else
    let listeners := ids.filterMap fun id => (s.handle? id).map fun h => (id, h)
    match ← deliverPairs (Play.overlappingPairs s ids) [] with
    | none => return ()
    | some fired =>
      deliverWorlds listeners fired
      Play.change fun s => { s with touchingBefore := s.touching }

/-! ## Messages -/

/-- Launches behaviors of one entity for a message and counts them; answers nothing when the session
    has stopped before one of them. -/
def handleEach (entity : String) : List Behavior → Nat → Chronicle (Option Nat)
  | [], handlers => return some handlers
  | b :: rest, handlers => do
    let s ← get
    if !s.running then return none
    else
      mark (.turn entity b)
      let launched ← if s.isLive entity then launch entity b else pure false
      handleEach entity rest (if launched then handlers + 1 else handlers)

/-- Brings a message to the given entities. -/
def handleMessage (message : String) : List String → Nat → Chronicle (Option Nat)
  | [], handlers => return some handlers
  | id :: rest, handlers => do
    mark (.visit id)
    let behaviors ← Play.ask fun s => s.behaviors id fun t => t == .message message
    match ← handleEach id behaviors handlers with
    | some handlers => handleMessage message rest handlers
    | none => return none

/-- Delivers messages in order, and tells the host how many behaviors each has launched. -/
def deliverMessages : List String → Chronicle Unit
  | [] => return ()
  | m :: rest => do
    mark (.deliver m)
    match ← handleMessage m (← Play.ask fun s => s.listeners .message) 0 with
    | none => return ()
    | some handlers =>
      seen (.delivered m handlers) (Play.change fun s => s.emit (.messageDelivered m handlers))
      deliverMessages rest

/-! ## Keys and the pointer -/

/-- Presses a key and runs the behaviors that wait for it; answers whether there is such a key. -/
def keyDown (raw : String) : Chronicle Bool := do
  match Key.parse? raw with
  | none => return false
  | some key =>
    Play.change fun s => { s with input := (s.input.press key).2 }
    let s ← get
    if s.running then
      launchAll (fun t => match t with
        | .key wanted => wanted.accepts key
        | _ => false) (s.listeners .key)
    return true

/-- Presses the pointer at a pixel and clicks the topmost entity there; answers its id. -/
def pointerDown (p : Vec Float32) : Chronicle (Option String) := do
  Play.change fun s => { s with input := { s.input with pointer := p, pressed := true } }
  let s ← get
  if !s.running then return none
  else
    match Play.topmost? s p with
    | none => return none
    | some (_, id) =>
      discard (launchEach id (s.behaviors id fun t => t == .click))
      return some id

/-! ## Rounds -/

end Chronicle

namespace Session

/-- The start scripts of all entities, in the order of registration. -/
def startScripts (s : Session) : List (String × Behavior) :=
  s.stage.ids.flatMap fun id => (s.behaviors id fun t => t == .start).map fun b => (id, b)

/-- An idle session that has begun to run, before its first start script. -/
def begun (s : Session) : Session :=
  let s : Session :=
    { s with
      running := true
      stage := s.stage.setAllStopped false
      loopsActive := false
      clock := s.clock.resetTimer
      journalShared := true }
  let t := s.note .info ("started with " ++ toString s.startScripts.length ++ " start scripts")
  { t with scheduler := t.scheduler.beginStart s.startScripts }

end Session

namespace Chronicle

/-- Begins to run: all entities take part again, and their start scripts run in order. -/
def start : Chronicle Unit := do
  if ← Play.ask Session.running then
    Play.change fun s => s.note .info "start ignored: already running"
  else
    seen .start (Play.change Session.begun)
    advanceStart

/-- One update of so many seconds; negative times and not-a-number count as none. -/
def updateBy (dt : Float32) : Chronicle Unit := do
  if ← Play.ask Session.running then
    let dt := Single.max dt 0
    let inbox ← seen .update Play.takeInbox
    Play.tick dt
    Play.change fun s => s.stepPhysics dt
    Play.countPhase "physics"
    advanceStart
    resumeAll
    Play.countPhase "tasks"
    runLoops
    Play.countPhase "forever"
    if ← Play.ask Session.running then deliverTouches
    Play.countPhase "touching"
    if ← Play.ask Session.running then deliverMessages inbox
    Play.countPhase "messages"

/-- One update of the configured frame time. -/
def update : Chronicle Unit := do updateBy (← Play.ask fun s => s.config.frameTime)

end Chronicle

/-! ## Calls -/

/-- A watched call that may run scripts. -/
def ScriptCall.watched : ScriptCall → Chronicle Unit
  | .start => Chronicle.start
  | .update => Chronicle.update
  | .updateBy dt => Chronicle.updateBy dt
  | .keyDown raw => discard (Chronicle.keyDown raw)
  | .pointerDown p => discard (Chronicle.pointerDown p)
  | .createClone source => discard (Chronicle.createClone source)

/-- A watched call. -/
def Call.watched (c : Call) : Chronicle Unit :=
  match c with
  | .script c => do
    Chronicle.mark (.call (.script c))
    c.watched
  | .broadcast message => do
    Chronicle.mark (.call (.broadcast message))
    Chronicle.post message
  | c => Chronicle.seen (.call c) c.run

namespace Session

/-- The moments that pass while calls are made, one after the other. -/
def chronicle (s : Session) : List Call → List Moment
  | [] => []
  | c :: rest => (c.watched s).2 ++ (c.run.last s).chronicle rest

end Session

end BlockStage
