/-
  Chronicles: what happens in a session, moment by moment.

  1. **Moments** — what is done in a session, from the calls of its host down to the single
     statements of its scripts, is done at a moment: there is an occasion, and the session as it is
     just before (`Moment`).

  2. **Watching** — a `Chronicle` is a step of a session that is watched: it ends like the step, and
     tells the moments that have passed, also if it breaks off.  Whatever is not seen on some
     occasion is done all the same.
-/
import BlockStage.Session.Call

namespace BlockStage

/-! ## Moments -/

/-- What a script does for its entity: it goes on by a step, which is to take a statement or to
    decide about another turn of a loop; it acts, evaluates, counts, or adds a looping behavior; or,
    while it waits, it is looked at what it waits for. -/
inductive Work where
  | step
  | act (a : Action)
  | test (e : Expr)
  | count (name : String) (i : Nat)
  | loop (behavior : Nat) (body : List Stmt)
  | look (p : Option Pause)

/-- On what occasion something is seen. -/
inductive Occasion where
  /-- The host makes a call. -/
  | call (c : Call)
  /-- An idle session begins to run. -/
  | start
  /-- An update begins and takes the queued messages. -/
  | update
  /-- A script does something for its entity. -/
  | work (entity : String) (behavior : Nat) (w : Work)
  /-- A behavior is launched. -/
  | launch (entity : String) (b : Behavior)
  /-- A clone is asked for. -/
  | clone (source : String)
  /-- A message is queued. -/
  | post (message : String)
  /-- The delivery of a message begins. -/
  | deliver (message : String)
  /-- The delivery comes to an entity. -/
  | visit (entity : String)
  /-- It is the turn of a behavior that waits for the message. -/
  | turn (entity : String) (b : Behavior)
  /-- The delivery of a message is over. -/
  | delivered (message : String) (handlers : Nat)
  /-- A queued start script begins. -/
  | opened (entity : String) (b : Behavior)
  /-- A start script pauses. -/
  | parked (t : Task)
  /-- It is looked whether a paused start script goes on. -/
  | fetched (t : Task)
  /-- A start script is over. -/
  | closed (entity : String) (behavior : Nat)
  /-- The start phase ends. -/
  | complete

/-- An occasion and the session just before. -/
structure Moment where
  occasion : Occasion
  session : Session

/-! ## Watching -/

/-- A step of a session that is watched: how it ends, and the moments that have passed. -/
def Chronicle (α : Type) : Type := Session → EStateM.Result Fault Session α × List Moment

namespace Chronicle

instance : Monad Chronicle where
  pure a := fun s => (.ok a s, [])
  bind c f := fun s =>
    match c s with
    | (.ok a t, l) => ((f a t).1, l ++ (f a t).2)
    | (.error e t, l) => (.error e t, l)

/-- A step of which nothing is seen. -/
instance : MonadLift Play Chronicle where
  monadLift p := fun s => (p s, [])

/-- A step that is seen on an occasion. -/
def seen {α : Type} (o : Occasion) (p : Play α) : Chronicle α := fun s => (p s, [⟨o, s⟩])

/-- An occasion on which nothing else happens. -/
def mark (o : Occasion) : Chronicle Unit := seen o (return ())

end Chronicle

end BlockStage
