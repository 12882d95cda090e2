/-
  Calls: how a host drives a session.

  A host makes one call after the other, in any order.  Calls are data here, so that what holds
  after every call can be said of all calls at once.  Those that may run scripts stand apart from
  those that only change the session.  A call that refuses has returned as well; only a fault keeps
  it from returning.

  A session without a seed draws its random numbers from a generator that nobody knows, so a new
  session may hold any.
-/
import BlockStage.Session.Lifecycle

namespace BlockStage

/-! ## Calls -/

/-- The calls that may run scripts. -/
inductive ScriptCall where
  | start
  | update
  | updateBy (dt : Float32)
  | keyDown (raw : String)
  | pointerDown (p : Vec Float32)
  | createClone (source : String)

/-- Makes a call that may run scripts; what it answers is left aside. -/
def ScriptCall.run : ScriptCall → Play Unit
  | .start => Play.start
  | .update => Play.update
  | .updateBy dt => Play.updateBy dt
  | .keyDown raw => discard (Play.keyDown raw)
  | .pointerDown p => discard (Play.pointerDown p)
  | .createClone source => discard (Play.createClone source)

/-- The calls about one entity, which do to it what a script can do to its own. -/
inductive EntityCall where
  | moveSteps (steps : Float32)
  | turn (degrees : Float32)
  | pointInDirection (degrees : Float32)
  | pointTowards (target : String)
  | goTo (x y : Option Float32)
  | goToTarget (target : String)
  | changePosition (offset : Vec Float32)
  | beginGlide (seconds : Float) (goal : Vec Float32)
  | enablePhysics
  | setVelocity (v : Vec Float32)
  | setGravityScale (scale : Float32)
  | setVisible (visible : Bool)
  | switchCostume (key : String)
  | nextCostume
  | setScale (scale : Float32)
  | changeScale (delta : Float32)
  | setDepth (depth : Int)
  | setVariable (key : String) (v : Value)
  | changeVariable (key : String) (delta : Float)
  | attach (parent : String)
  | detach
  | stop
  | delete

/-- The session after a call about an entity. -/
def EntityCall.apply (id : String) : EntityCall → Session → Session
  | .moveSteps steps, s => (s.moveSteps id steps).2
  | .turn degrees, s => (s.turn id degrees).2
  | .pointInDirection degrees, s => (s.pointInDirection id degrees).2
  | .pointTowards target, s => (s.pointTowards id target).2
  | .goTo x y, s => (s.goTo id x y).2
  | .goToTarget target, s => (s.goToTarget id target).2
  | .changePosition offset, s => (s.changePosition id offset).2
  | .beginGlide seconds goal, s => (s.beginGlide id seconds goal).2
  | .enablePhysics, s => (s.enablePhysics id).2
  | .setVelocity v, s => (s.setVelocity id v).2
  | .setGravityScale scale, s => (s.setGravityScale id scale).2
  | .setVisible visible, s => (s.setVisible id visible).2
  | .switchCostume key, s => (s.switchCostume id key).2
  | .nextCostume, s => (s.nextCostume id).2
  | .setScale scale, s => (s.setScale id scale).2
  | .changeScale delta, s => (s.changeScale id delta).2
  | .setDepth depth, s => (s.setDepth id depth).2
  | .setVariable key v, s => (s.setVariable id key v).2
  | .changeVariable key delta, s => (s.changeVariable id key delta).2
  | .attach parent, s => (s.attach id parent).2
  | .detach, s => (s.detach id).2
  | .stop, s => (s.stopEntity id).2
  | .delete, s => (s.deleteEntity id).2

/-- All calls. -/
inductive Call where
  | script (c : ScriptCall)
  | entity (id : String) (c : EntityCall)
  | playSound (id key : String)
  | loadScene (scene : Scene)
  | loadEntity (e : EntityDescription)
  | register (d : Spawn Float32)
  | saveTemplate (id : String)
  | compile (p : Program)
  | addBehaviors (id : String) (c : CompiledProgram)
  | defineVariables (l : List VariableDefinition)
  | addCostumes (l : List (Costume Float32))
  | addSounds (l : List Sound)
  | stopAll
  | cleanup
  | keyUp (raw : String)
  | pointerMoved (p : Vec Float32)
  | pointerUp
  | broadcast (message : String)
  | completeSound (handle : Nat)
  | stopAllSounds
  | requestScene (scene : String)
  | resetTimer
  | resizeCanvas (width height : Float32)
  | takeScene
  | takeRequests
  | takeEvents
  | takeJournal

namespace Call

/-- The session after a call that may be refused, which changes nothing then. -/
def orSame {ε : Type} (s : Session) : Except ε Session → Session
  | .ok t => t
  | .error _ => s

/-- Makes a call; what it answers is left aside. -/
def run : Call → Play Unit
  | .script c => c.run
  | .entity id c => Play.change (c.apply id)
  | .playSound id key => discard (Play.playSound id key)
  | .loadScene scene => Play.change fun s => (s.loadScene scene).2
  | .loadEntity e => Play.change fun s => (s.loadEntity e).2
  | .register d => Play.change fun s => orSame s (s.enroll d)
  | .saveTemplate id => Play.change fun s => orSame s (s.saveTemplate id)
  | .compile p => Play.change fun s => (s.compile p).2
  | .addBehaviors id c => Play.change fun s => (s.addBehaviors id c).2
  | .defineVariables l => Play.change fun s => s.defineVariables l
  | .addCostumes l => Play.change fun s => s.addCostumes l
  | .addSounds l => Play.change fun s => s.addSounds l
  | .stopAll => Play.change Session.stopAll
  | .cleanup => Play.change Session.cleanup
  | .keyUp raw => discard (Play.keyUp raw)
  | .pointerMoved p => Play.pointerMoved p
  | .pointerUp => Play.pointerUp
  | .broadcast message => Play.change fun s => s.broadcast message
  | .completeSound handle => Play.change fun s =>
      { s with player := (s.player.complete handle).2 }
  | .stopAllSounds => Play.change Session.stopAllSounds
  | .requestScene scene => Play.change fun s => s.requestScene scene
  | .resetTimer => Play.change Session.resetTimer
  | .resizeCanvas width height => Play.change fun s => (s.resizeCanvas width height).2
  | .takeScene => Play.change fun s => { s with pendingScene := none }
  | .takeRequests => Play.change fun s => { s with player := s.player.takeRequests.2 }
  | .takeEvents => Play.change fun s => { s with events := [] }
  | .takeJournal => Play.change fun s => { s with journal := s.journal.clear }

end Call

/-! ## Reachable sessions -/

namespace Session

/-- A session that has not loaded a scene, with any generator and any clone budget. -/
def fresh (config : Config) (g : Generator) (budget : Nat) : Session :=
  { new config with generator := g, cloneBudget := budget }

/-- The sessions between calls, as long as every call has returned. -/
inductive Reachable : Session → Prop where
  | fresh (config : Config) (g : Generator) (budget : Nat) : Reachable (fresh config g budget)
  | call {s t : Session} (c : Call) (hs : Reachable s) (hc : c.run s = .ok () t) : Reachable t

end Session

/-- The session that a step leaves behind, also when it breaks off. -/
def Play.last {α : Type} (p : Play α) (s : Session) : Session :=
  match p s with
  | .ok _ t => t
  | .error _ t => t

theorem Play.last_of_ok {α : Type} {p : Play α} {s t : Session} {a : α} (h : p s = .ok a t) :
    p.last s = t := by
  rw [Play.last, h]

/-- Does a step return? -/
def Play.returns {α : Type} (p : Play α) (s : Session) : Bool :=
  match p s with
  | .ok _ _ => true
  | .error _ _ => false

/-- The sessions between calls, whether or not the calls have returned. -/
inductive Session.Visited : Session → Prop where
  | fresh (config : Config) (g : Generator) (budget : Nat) : Visited (fresh config g budget)
  | call {s : Session} (c : Call) (hs : Visited s) : Visited (c.run.last s)

/-- The sessions between calls of some kind, whether or not the calls have returned. -/
inductive Session.VisitedBy (allowed : Call → Prop) : Session → Prop where
  | fresh (config : Config) (g : Generator) (budget : Nat) : VisitedBy allowed (fresh config g budget)
  | call {s : Session} (c : Call) (hc : allowed c) (hs : VisitedBy allowed s) :
    VisitedBy allowed (c.run.last s)

namespace Session

/-- The session after calls, made one after the other. -/
def after (s : Session) (l : List Call) : Session := l.foldl (fun s c => c.run.last s) s

/-- Do calls, made one after the other, all return? -/
def allReturn (s : Session) : List Call → Bool
  | [] => true
  | c :: rest => c.run.returns s && (c.run.last s).allReturn rest

theorem Reachable.after {s : Session} (hs : Reachable s) (l : List Call)
    (h : s.allReturn l = true) : Reachable (s.after l) := by
  induction l generalizing s with
  | nil => exact hs
  | cons c rest ih =>
    obtain ⟨returned, others⟩ := Bool.and_eq_true_iff.mp h
    rw [Play.returns] at returned
    cases hc : c.run s with
    | ok a t =>
      have next : Reachable (c.run.last s) := hs.call c (by rw [Play.last_of_ok hc, hc])
      exact ih next others
    | error e t =>
      rw [hc] at returned
      cases returned

theorem Visited.after {s : Session} (hs : Visited s) (l : List Call) : Visited (s.after l) := by
  induction l generalizing s with
  | nil => exact hs
  | cons c rest ih => exact ih (hs.call c)

theorem VisitedBy.after {allowed : Call → Prop} {s : Session} (hs : VisitedBy allowed s)
    (l : List Call) (hl : ∀ c ∈ l, allowed c) : VisitedBy allowed (s.after l) := by
  induction l generalizing s with
  | nil => exact hs
  | cons c rest ih =>
    exact ih (hs.call c (hl c List.mem_cons_self)) fun d hd => hl d (List.mem_cons_of_mem c hd)

end Session

end BlockStage
