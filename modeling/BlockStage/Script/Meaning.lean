/-
  The meaning of a script, read off its structure.

  The machine keeps what is left of a script in a stack of frames.  Here a script is followed by
  plain recursion on its statements instead: a branch is its test and the chosen body, a counted
  loop is its body so many times over, and so on.  Both are watched the same way: a script that has
  paused is looked at again and again, each look after whatever its surroundings did meanwhile, and
  only so many looks are granted.

  1. **The machine, watched** — `Host.look` is one look at a paused script, `Host.follow` as many
     as are granted; the outcome is the pause that is still on after the last look.

  2. **Courses** — a `Course` is told how many looks are left and what comes after it.  What comes
     after is told in turn how many looks are left then, with a proof that they are no more than
     before.  This is what makes a loop without bound well founded: each of its turns ends in a
     pause, so the next one begins with strictly fewer looks (`Course.turning`).

  3. **The crux is where a script may be cut short.**  An entity can be stopped or removed at any
     time, and its script ends the next time it would do something: before each statement, at the
     end of each turn, and at each look.  `Course.goOn` marks those places and no others.
-/
import BlockStage.Script.Machine

namespace BlockStage

variable {m : Type → Type} [Monad m]

/-! ## The machine, watched -/

/-- What surrounds a paused script: what happens while it waits until the next look, and whether a
    wait for a time, a glide or a playback is over. -/
structure Pacing (m : Type → Type) where
  between : Pause → m Unit
  ended : Pause → m Bool

namespace Host

/-- Is a pause over?  A tick is at the next look, and a condition is tested anew. -/
def isOver (h : Host m) (w : Pacing m) : Pause → m Bool
  | .tick => return true
  | .condition e => return (← h.eval e).toBool
  | p => w.ended p

/-- One look at a paused script. -/
def look (h : Host m) (w : Pacing m) (frames : List Frame) (p : Pause) : m Slice := do
  if !(← h.alive) then return .finished
  else if !(← h.isOver w p) then return .paused frames p
  else h.run frames

/-- So many looks at a script; answers the pause that is still on, nothing if the script is over. -/
def follow (h : Host m) (w : Pacing m) : Nat → Slice → m (Option Pause)
  | _, .finished => return none
  | 0, .paused _ p => return some p
  | looks + 1, .paused frames p => do
    w.between p
    h.follow w looks (← h.look w frames p)

end Host

/-! ## Courses -/

/-- A part of a script: what it does when so many looks are left, given what comes after it. -/
def Course (m : Type → Type) (α : Type) : Type :=
  (looks : Nat) → ((left : Nat) → left ≤ looks → α → m (Option Pause)) → m (Option Pause)

namespace Course

instance : Monad (Course m) where
  pure a := fun looks next => next looks (Nat.le_refl looks) a
  bind c f := fun looks next =>
    c looks fun left h a => f a left fun left' h' b => next left' (Nat.le_trans h' h) b

/-- Something done at once. -/
instance : MonadLift m (Course m) where
  monadLift x := fun looks next => do next looks (Nat.le_refl looks) (← x)

/-- A course to its end. -/
def start (c : Course m Unit) (looks : Nat) : m (Option Pause) := c looks fun _ _ _ => return none

/-- The end of the script. -/
def stop {α : Type} : Course m α := fun _ _ => return none

/-- Ends the script if it may not go on. -/
def goOn (h : Host m) : Course m Unit := do
  if !(← h.alive) then stop

/-- Waits until a pause is over, which takes a look at least. -/
def awaiting (h : Host m) (w : Pacing m) (p : Pause) :
    (looks : Nat) → ((left : Nat) → left < looks → m (Option Pause)) → m (Option Pause)
  | 0, _ => return some p
  | looks + 1, next => do
    w.between p
    if !(← h.alive) then return none
    else if !(← h.isOver w p) then
      awaiting h w p looks fun left hl => next left (Nat.lt_succ_of_lt hl)
    else next looks (Nat.lt_succ_self looks)

/-- Waits until a pause is over. -/
def await (h : Host m) (w : Pacing m) (p : Pause) : Course m Unit := fun looks next =>
  awaiting h w p looks fun left hl => next left (Nat.le_of_lt hl) ()

/-! ## Loops -/

/-- The end of a turn: a pause of one tick. -/
def endTurn (h : Host m) (w : Pacing m) : Course m Unit := do
  goOn h
  await h w .tick

/-- So many turns. -/
def turns (h : Host m) (w : Pacing m) (turn : Course m Unit) : Nat → Course m Unit
  | 0 => return ()
  | n + 1 => do
    turn
    endTurn h w
    turns h w turn n

/-- So many turns, the number of each written to a variable before it. -/
def counted (h : Host m) (w : Pacing m) (name : String) (turn : Course m Unit) :
    Nat → Nat → Course m Unit
  | _, 0 => return ()
  | i, n + 1 => do
    h.count name i
    turn
    endTurn h w
    counted h w name turn (i + 1) n

/-- Turns until a test holds, which is made before each. -/
def turning (h : Host m) (w : Pacing m) (test : m Bool) (turn : Course m Unit) (looks : Nat)
    (next : (left : Nat) → left ≤ looks → m (Option Pause)) : m (Option Pause) := do
  if ← test then next looks (Nat.le_refl looks)
  else
    turn looks fun left hl _ => do
      if !(← h.alive) then return none
      else
        awaiting h w .tick left fun left' hl' =>
          turning h w test turn left' fun last hlast => next last (by omega)
termination_by looks

/-- Turns until a test holds. -/
def untilTrue (h : Host m) (w : Pacing m) (test : m Bool) (turn : Course m Unit) : Course m Unit :=
  fun looks next => turning h w test turn looks fun left hl => next left hl ()

end Course

/-! ## Statements -/

mutual

/-- The meaning of a statement. -/
def Stmt.meaning (h : Host m) (w : Pacing m) : Stmt → Course m Unit
  | .action a => do
    Course.goOn h
    match ← h.perform a with
    | .proceed => return ()
    | .pause p => Course.await h w p
    | .finish => Course.stop
    | .fail message =>
      h.report message
      Course.stop
  | .forever loop body => do
    Course.goOn h
    h.addLoop loop body
    Course.stop
  | .branch condition yes none => do
    Course.goOn h
    if (← h.eval condition).toBool then Stmt.meanings h w yes
  | .branch condition yes (some no) => do
    Course.goOn h
    if (← h.eval condition).toBool then Stmt.meanings h w yes else Stmt.meanings h w no
  | .repeatTimes times body => do
    Course.goOn h
    let v ← h.eval times
    Course.turns h w (Stmt.meanings h w body) (toNat64 (roundOf v.toNumber))
  | .repeatUntil condition body => do
    Course.goOn h
    Course.untilTrue h w (do return (← h.eval condition).toBool) (Stmt.meanings h w body)
  | .waitUntil condition => do
    Course.goOn h
    if !(← h.eval condition).toBool then Course.await h w (.condition condition)
  | .forEach name count body => do
    Course.goOn h
    let v ← h.eval count
    Course.counted h w name (Stmt.meanings h w body) 1 (toNat64 (floorOf v.toNumber))

/-- The meaning of statements one after the other. -/
def Stmt.meanings (h : Host m) (w : Pacing m) : List Stmt → Course m Unit
  | [] => return ()
  | s :: rest => do
    s.meaning h w
    Stmt.meanings h w rest

end

end BlockStage
