/-
  Delivery: bringing events to the behaviors that wait for them.

  Events go to the entities that listen, in the order of registration, and within an entity to its
  behaviors in the order of its catalog.  Before each behavior it is asked anew whether its entity
  still takes part, since every script may stop or delete anyone.
-/
import BlockStage.Session.Tasks

namespace BlockStage

namespace Play

/-- Launches behaviors of one entity in order, as long as it takes part; answers how many were
    launched. -/
def launchEach (entity : String) : List Behavior → Play Nat
  | [] => return 0
  | b :: rest => do
    let launched ← if ← ask fun s => s.isLive entity then launch entity b else pure false
    let others ← launchEach entity rest
    return (if launched then 1 else 0) + others

/-- Launches the behaviors with a fitting trigger of the given entities. -/
def launchAll (test : Trigger → Bool) : List String → Play Unit
  | [] => return ()
  | id :: rest => do
    discard (launchEach id (← ask fun s => s.behaviors id test))
    launchAll test rest

/-! ## Looping behaviors -/

/-- Runs looping behaviors, once the start phase is over. -/
def runLoops : Play Unit := do
  let s ← get
  if s.loopsActive then launchAll (fun t => t == .forever) (s.listeners .forever)

/-! ## Touching -/

/-- The behaviors that have been triggered by touching in this update. -/
abbrev Fired := List (String × Nat)

/-- Does the trigger wait for a touch of another entity? -/
def touchesEntity : Trigger → Bool
  | .touching t => t.namesEntities
  | _ => false

/-- Does the trigger wait for a touch of the edge, the ground or the pointer? -/
def touchesWorld : Trigger → Bool
  | .touching t => !t.namesEntities
  | _ => false

/-- Launches a behavior unless it has been triggered in this update. -/
def fireOnce (id : String) (b : Behavior) (fired : Fired) : Play Fired := do
  if fired.contains (id, b.id) then return fired
  else
    discard (launch id b)
    return fired ++ [(id, b.id)]

/-- Triggers the behaviors of one side of a touching pair. -/
def deliverSide (id : String) (viewer other : Handle) : List Behavior → Fired → Play Fired
  | [], fired => return fired
  | b :: rest, fired => do
    let s ← get
    let wanted := match b.trigger with
      | .touching target => s.isLive id && s.stage.isMeant viewer other target
      | _ => false
    let fired ← if wanted then fireOnce id b fired else pure fired
    deliverSide id viewer other rest fired

/-- Delivers touching pairs in order; answers nothing when the session has stopped meanwhile. -/
def deliverPairs : List ((String × Handle) × (String × Handle)) → Fired → Play (Option Fired)
  | [], fired => return some fired
  | (a, b) :: rest, fired => do
    let s ← get
    if !s.running then return none
    else
      let key := Event.sortedPair a.1 b.1
      if s.touching.contains key then deliverPairs rest fired
      else
        change fun s =>
          let s := { s with touching := s.touching ++ [key] }
          if s.touchingBefore.contains key then s else s.emit (.touching a.1 b.1)
        let ofA ← ask fun s => s.behaviors a.1 touchesEntity
        let fired ← deliverSide a.1 a.2 b.2 ofA fired
        let ofB ← ask fun s => s.behaviors b.1 touchesEntity
        let fired ← deliverSide b.1 b.2 a.2 ofB fired
        deliverPairs rest fired

/-- Triggers the behaviors of an entity that wait for a touch of the world. -/
def deliverWorld (id : String) (h : Handle) : List Behavior → Fired → Play Fired
  | [], fired => return fired
  | b :: rest, fired => do
    let s ← get
    if !s.running || !s.isLive id then return fired
    else
      let touches := match b.trigger with
        | .touching target => s.stage.isTouching h target s.input.pointer
        | _ => false
      let fired ← if touches then fireOnce id b fired else pure fired
      deliverWorld id h rest fired

/-- Triggers the behaviors of all listeners that wait for a touch of the world. -/
def deliverWorlds : List (String × Handle) → Fired → Play Unit
  | [], _ => return ()
  | (id, h) :: rest, fired => do
    let behaviors ← ask fun s => s.behaviors id touchesWorld
    let fired ← deliverWorld id h behaviors fired
    deliverWorlds rest fired

/-- An entity that can be sensed, with the boxes by which it is sensed. -/
structure Candidate where
  id : String
  handle : Handle
  listening : Bool
  silhouette : Silhouette Float32

/-- The overlapping pairs of which a side listens. -/
def pairsAmong : List Candidate → List ((String × Handle) × (String × Handle))
  | [] => []
  | a :: rest =>
    (rest.filter fun b => (a.listening || b.listening) && a.silhouette.overlaps b.silhouette).map
      (fun b => ((a.id, a.handle), (b.id, b.handle))) ++ pairsAmong rest

/-- The overlapping pairs of entities that can be sensed and of which a side is among the
    listeners. -/
def overlappingPairs (s : Session) (listeners : List String) :
    List ((String × Handle) × (String × Handle)) :=
  let present := s.stage.ids.filterMap fun id => (s.handle? id).map fun h => (id, h)
  pairsAmong
    ((present.filter fun e => s.stage.isPerceptible e.2).map fun e =>
      ⟨e.1, e.2, listeners.contains e.1, s.stage.silhouette e.2⟩)

/-- Delivers touches: each overlapping pair once, to both sides, then the world to each listener.
    A behavior is triggered at most once per entity. -/
def deliverTouches : Play Unit := do
  change fun s => { s with touching := [] }
  let s ← get
  let ids := s.listeners .touching
  if ids.isEmpty then change fun s => { s with touchingBefore := [] }
  else
    let listeners := ids.filterMap fun id => (s.handle? id).map fun h => (id, h)
    match ← deliverPairs (overlappingPairs s ids) [] with
    | none => return ()
    | some fired =>
      deliverWorlds listeners fired
      change fun s => { s with touchingBefore := s.touching }

/-! ## Messages -/

/-- Launches behaviors of one entity for a message and counts them; answers nothing when the session
    has stopped before one of them. -/
def handleEach (entity : String) : List Behavior → Nat → Play (Option Nat)
  | [], handlers => return some handlers
  | b :: rest, handlers => do
    let s ← get
    if !s.running then return none
    else
      let launched ← if s.isLive entity then launch entity b else pure false
      handleEach entity rest (if launched then handlers + 1 else handlers)

/-- Brings a message to the given entities. -/
def handleMessage (message : String) : List String → Nat → Play (Option Nat)
  | [], handlers => return some handlers
  | id :: rest, handlers => do
    let behaviors ← ask fun s => s.behaviors id fun t => t == .message message
    match ← handleEach id behaviors handlers with
    | some handlers => handleMessage message rest handlers
    | none => return none

/-- Delivers messages in order, and tells the host how many behaviors each has launched. -/
def deliverMessages : List String → Play Unit
  | [] => return ()
  | m :: rest => do
    match ← handleMessage m (← ask fun s => s.listeners .message) 0 with
    | none => return ()
    | some handlers =>
      change fun s => s.emit (.messageDelivered m handlers)
      deliverMessages rest

/-! ## Keys and the pointer -/

/-- Presses a key and runs the behaviors that wait for it; answers whether there is such a key. -/
def keyDown (raw : String) : Play Bool := do
  match Key.parse? raw with
  | none => return false
  | some key =>
    change fun s => { s with input := (s.input.press key).2 }
    let s ← get
    if s.running then
      launchAll (fun t => match t with
        | .key wanted => wanted.accepts key
        | _ => false) (s.listeners .key)
    return true

/-- Lets a key go; answers whether there is such a key. -/
def keyUp (raw : String) : Play Bool := do
  match Key.parse? raw with
  | none => return false
  | some key =>
    change fun s => { s with input := s.input.release key }
    return true

/-- Moves the pointer to a pixel. -/
def pointerMoved (p : Vec Float32) : Play Unit :=
  change fun s => { s with input := { s.input with pointer := p } }

/-- Lets the pointer's button go. -/
def pointerUp : Play Unit := change fun s => { s with input := { s.input with pressed := false } }

/-- The topmost actor at a point: of the greatest depth, and of those the last. -/
def topmost? (s : Session) (p : Vec Float32) : Option (Int × String) :=
  s.stage.handles.foldl
    (fun best h =>
      match s.stage.actor? h with
      | none => best
      | some a =>
        if s.stage.isPerceptible h && s.stage.isHit h p then
          match best with
          | some (depth, _) => if depth ≤ a.look.depth then some (a.look.depth, a.id) else best
          | none => some (a.look.depth, a.id)
        else best)
    none

/-- Presses the pointer at a pixel and clicks the topmost entity there; answers its id. -/
def pointerDown (p : Vec Float32) : Play (Option String) := do
  change fun s => { s with input := { s.input with pointer := p, pressed := true } }
  let s ← get
  if !s.running then return none
  else
    match topmost? s p with
    | none => return none
    | some (_, id) =>
      discard (launchEach id (s.behaviors id fun t => t == .click))
      return some id

end Play

end BlockStage
