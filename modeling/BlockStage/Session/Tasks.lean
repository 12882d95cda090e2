/-
  Tasks: scripts that go on over several updates.

  Paused tasks are looked at once per update, in the order in which they paused.  Start scripts run
  one at a time; the next begins when the one before is over, and only after the last do looping
  behaviors run and are templates renewed.
-/
import BlockStage.Session.Scripts

namespace BlockStage

namespace Play

/-- The slack by which a time may be missed, since frame times are rounded. -/
def timeSlack : Float := 1e-6

/-- May a task go on?  Looking at a glide also moves the entity along. -/
def isReady (t : Task) : Play Bool := do
  match t.waiting with
  | none => return true
  | some .tick => return true
  | some (.time deadline) => ask fun s => deadline ≤ s.now + timeSlack
  | some (.condition e) => return (← evaluate t.entity e).toBool
  | some (.glide g) =>
    let now ← ask Session.now
    change fun s => (s.place t.entity (g.position now)).2
    return decide (1 ≤ g.progress now)
  | some (.playback handle) => ask fun s => !s.player.isPlaying handle

/-- Notes that a task is over. -/
def retire (t : Task) : Play Unit := schedule fun q => q.deactivate t.entity t.behavior

/-- Lets one paused task go on; answers what is left of it. -/
def resume (t : Task) : Play (Option Task) := do
  if !(← ask fun s => s.mayRun t.entity) then
    retire t
    return none
  else if !(← isReady t) then return some t
  else
    match ← runSlice makeClone t with
    | some t => return some t
    | none =>
      retire t
      return none

/-- Lets paused tasks go on in order; answers those that still wait. -/
def resumeEach : List Task → Play (List Task)
  | [] => return []
  | t :: rest => do
    let first ← resume t
    let others ← resumeEach rest
    return first.toList ++ others

/-- Takes all waiting tasks. -/
def takeWaiting : Play (List Task) :=
  changing fun s =>
    (s.scheduler.waiting, { s with scheduler := { s.scheduler with waiting := [] } })

/-- Lets all paused tasks go on.  Tasks that paused meanwhile come after them. -/
def resumeAll : Play Unit := do
  let still ← resumeEach (← takeWaiting)
  if ← ask Session.running then schedule fun q => { q with waiting := still ++ q.waiting }

/-! ## The start phase -/

/-- Renews the template of a prototype with its present catalog, if it has both. -/
def renewTemplate (s : Session) (id : String) : Session :=
  match s.templates.get? id, s.catalogs.get? id with
  | some t, some c => { s with templates := s.templates.insert id { t with catalog := c } }
  | _, _ => s

/-- Ends the start phase: templates are renewed and looping behaviors begin. -/
def finishStart (s : Session) : Session :=
  let prototypes := s.stage.ids.filter fun id => !s.isClone id
  { prototypes.foldl renewTemplate s with loopsActive := true }.note .info "start phase complete"

/-- Runs start scripts in order until one pauses. -/
def runStarts : List (String × Behavior) → Play Unit
  | [] => do
    if ← ask Session.running then
      schedule fun q => { q with starting := false }
      change finishStart
    else schedule fun _ => .idle
  | (entity, b) :: rest => do
    if ← ask Session.running then
      schedule fun q => { q with startQueue := rest }
      match ← runSlice makeClone (Task.new entity b) with
      | some t => schedule fun q => { q with startTask := some t }
      | none => runStarts rest
    else schedule fun _ => .idle

/-- Lets a start script go on, and once it is over those after it. -/
def continueStart (t : Task) (rest : List (String × Behavior)) : Play Unit := do
  match ← runSlice makeClone t with
  | some t => schedule fun q => { q with startTask := some t }
  | none => runStarts rest

/-- Takes the start phase as far as it goes in this update. -/
def advanceStart : Play Unit := do
  let s ← get
  if !s.scheduler.starting then return ()
  else if !s.running then schedule fun _ => .idle
  else
    match s.scheduler.startTask with
    | none => runStarts s.scheduler.startQueue
    | some t =>
      schedule fun q => { q with startTask := none }
      let waits ← if s.mayRun t.entity then (do return !(← isReady t)) else pure false
      if waits then schedule fun q => { q with startTask := some t }
      else continueStart t s.scheduler.startQueue

end Play

end BlockStage
