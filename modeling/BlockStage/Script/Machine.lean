/-
  The script machine: running a body statement by statement, in slices.

  What is left of a script is a stack of frames: the rest of a sequence, the rest of a loop's turn,
  or a loop whose turn is over and whose test is still to come.  A slice runs until the script
  pauses or ends.  Every turn of a loop, the last one included, ends in a pause of one tick, and
  the test that decides about another turn runs when the script goes on.

  So a slice never takes a loop back to its beginning before it has paused, and the statements that
  it can still reach grow fewer with every step: `Frame.weight` counts them, and `Host.run` is a
  recursion on that count.  The machine asks a host for values and effects and knows nothing else,
  so it can be run against a session or against a list of recorded answers.
-/
import BlockStage.Geometry.Glide
import BlockStage.Script.Syntax

namespace BlockStage

/-- What a paused script waits for: the next tick, a time, a condition, the end of a glide, or the
    end of a playback. -/
inductive Pause where
  | tick
  | time (t : Float)
  | condition (e : Expr)
  | glide (g : Glide)
  | playback (handle : Nat)

/-- How a script goes on after an action. -/
inductive Flow where
  | proceed
  | pause (p : Pause)
  | finish
  | fail (message : String)

/-- What a script needs from its surroundings: whether it may go on at all, the value of an
    expression, the effect of an action, a new value for a loop's variable, a looping behavior for
    its entity, and a place to report a failed action. -/
structure Host (m : Type → Type) where
  alive : m Bool
  eval : Expr → m Value
  perform : Action → m Flow
  count : String → Nat → m Unit
  addLoop : Nat → List Stmt → m Unit
  report : String → m Unit

/-! ## Frames -/

/-- What decides whether a loop takes another turn. -/
inductive Loop where
  | times (remaining : Nat)
  | untilTrue (condition : Expr)
  | each (name : String) (index count : Nat)

/-- A part of a script that is under way. -/
inductive Frame where
  | sequence (rest : List Stmt)
  | loop (kind : Loop) (body rest : List Stmt)
  | turned (kind : Loop) (body : List Stmt)

mutual

/-- An upper bound on the steps that a statement takes before it is over or has paused. -/
def Stmt.weight : Stmt → Nat
  | .action _ => 1
  | .forever _ _ => 1
  | .waitUntil _ => 1
  | .branch _ yes none => 2 + Stmt.weights yes
  | .branch _ yes (some no) => 2 + Stmt.weights yes + Stmt.weights no
  | .repeatTimes _ body => 2 + Stmt.weights body
  | .repeatUntil _ body => 2 + Stmt.weights body
  | .forEach _ _ body => 2 + Stmt.weights body

/-- The bound for a list of statements. -/
def Stmt.weights : List Stmt → Nat
  | [] => 0
  | s :: rest => s.weight + Stmt.weights rest

end

namespace Frame

/-- The bound for a frame. -/
def weight : Frame → Nat
  | .sequence rest => 1 + Stmt.weights rest
  | .loop _ _ rest => 1 + Stmt.weights rest
  | .turned _ body => 2 + Stmt.weights body

/-- The bound for a stack. -/
def weights : List Frame → Nat
  | [] => 0
  | f :: fs => f.weight + weights fs

theorem weights_append (fs gs : List Frame) : weights (fs ++ gs) = weights fs + weights gs := by
  induction fs with
  | nil => simp [weights]
  | cons f fs ih => simp only [List.cons_append, weights, ih]; omega

/-- The next statement of a frame, and the frame after it. -/
def take? : Frame → Option (Stmt × Frame)
  | .sequence (s :: rest) => some (s, .sequence rest)
  | .loop kind body (s :: rest) => some (s, .loop kind body rest)
  | _ => none

theorem weight_of_take? {f g : Frame} {s : Stmt} (h : f.take? = some (s, g)) :
    s.weight + g.weight = f.weight := by
  cases f with
  | sequence l =>
    cases l with
    | nil => simp [take?] at h
    | cons a r => simp [take?] at h; obtain ⟨rfl, rfl⟩ := h; simp [weight, Stmt.weights]; omega
  | loop k b l =>
    cases l with
    | nil => simp [take?] at h
    | cons a r => simp [take?] at h; obtain ⟨rfl, rfl⟩ := h; simp [weight, Stmt.weights]; omega
  | turned k b => simp [take?] at h

end Frame

/-! ## Statements -/

/-- What becomes of a statement: nothing more, a branch, a number of turns, a pause, or the end of
    the script. -/
inductive Outcome where
  | proceed
  | first
  | second
  | turns (n : Nat)
  | pause (p : Pause)
  | finish

/-- The frames that a statement leaves behind. -/
def Stmt.enter : Stmt → Outcome → List Frame
  | .branch _ yes _, .first => [.sequence yes]
  | .branch _ _ (some no), .second => [.sequence no]
  | .repeatTimes _ body, .turns n => [.loop (.times n) body body]
  | .repeatUntil condition body, .turns _ => [.loop (.untilTrue condition) body body]
  | .forEach name _ body, .turns n => [.loop (.each name 1 n) body body]
  | _, _ => []

theorem Stmt.weight_pos (s : Stmt) : 0 < s.weight := by
  cases s with
  | branch c y n =>
    cases n with
    | none => simp only [Stmt.weight]; omega
    | some no => simp only [Stmt.weight]; omega
  | _ => simp only [Stmt.weight]; omega

theorem Stmt.weights_enter (s : Stmt) (o : Outcome) : Frame.weights (s.enter o) < s.weight := by
  unfold Stmt.enter
  split <;> (try cases ‹Option (List Stmt)›) <;>
    simp [Frame.weights, Frame.weight, Stmt.weight, Stmt.weight_pos] <;> omega

namespace Frame

/-- Without its first frame a stack is lighter. -/
theorem weights_lt_cons (f : Frame) (fs : List Frame) : weights fs < weights (f :: fs) := by
  have pos : 0 < f.weight := by cases f <;> simp only [weight] <;> omega
  simp only [weights]
  omega

/-- Another turn weighs less than the decision about it. -/
theorem weights_turn_lt (kind next : Loop) (body : List Stmt) (fs : List Frame) :
    weights (.loop next body body :: fs) < weights (.turned kind body :: fs) := by
  simp only [weights, weight]
  omega

/-- When a statement has been taken and entered, the stack is lighter. -/
theorem weights_enter_lt {f g : Frame} {s : Stmt} (ht : f.take? = some (s, g)) (o : Outcome)
    (fs : List Frame) : weights (s.enter o ++ g :: fs) < weights (f :: fs) := by
  have enters := Stmt.weights_enter s o
  have takes := weight_of_take? ht
  simp only [weights, weights_append]
  omega

end Frame

namespace Host

variable {m : Type → Type} [Monad m]

/-- Runs what a statement does by itself: one evaluation, one action, or one test. -/
def resolve (h : Host m) : Stmt → m Outcome
  | .action a => do
    match ← h.perform a with
    | .proceed => return .proceed
    | .pause p => return .pause p
    | .finish => return .finish
    | .fail message =>
      h.report message
      return .finish
  | .forever loop body => do
    h.addLoop loop body
    return .finish
  | .branch condition _ _ => do
    let v ← h.eval condition
    return if v.toBool then .first else .second
  | .repeatTimes times _ => do
    let v ← h.eval times
    let n := toNat64 (roundOf v.toNumber)
    return if n = 0 then .proceed else .turns n
  | .repeatUntil condition _ => do
    let v ← h.eval condition
    return if v.toBool then .proceed else .turns 1
  | .waitUntil condition => do
    let v ← h.eval condition
    return if v.toBool then .proceed else .pause (.condition condition)
  | .forEach name count _ => do
    let v ← h.eval count
    let n := toNat64 (floorOf v.toNumber)
    if n = 0 then return .proceed
    else
      h.count name 1
      return .turns n

/-- Decides about another turn. -/
def again (h : Host m) : Loop → m (Option Loop)
  | .times n => return if 1 < n then some (.times (n - 1)) else none
  | .untilTrue condition => do
    let v ← h.eval condition
    return if v.toBool then none else some (.untilTrue condition)
  | .each name index count => do
    if index < count then
      h.count name (index + 1)
      return some (.each name (index + 1) count)
    else return none

end Host

/-! ## Slices -/

/-- How a slice ends: the script is over, or it waits with frames left. -/
inductive Slice where
  | finished
  | paused (frames : List Frame) (pause : Pause)

/-- Runs a script until it pauses or ends.  It ends at once when it may not go on. -/
def Host.run {m : Type → Type} [Monad m] (h : Host m) (frames : List Frame) : m Slice := do
  if !(← h.alive) then return .finished
  else
    match frames with
    | [] => return .finished
    | f :: fs =>
      match _ht : f.take? with
      | some (s, g) =>
        match ← h.resolve s with
        | .pause p => return .paused (g :: fs) p
        | .finish => return .finished
        | o => h.run (s.enter o ++ g :: fs)
      | none =>
        match f with
        | .sequence _ => h.run fs
        | .loop kind body _ => return .paused (.turned kind body :: fs) .tick
        | .turned kind body =>
          match ← h.again kind with
          | some kind => h.run (.loop kind body body :: fs)
          | none => h.run fs
termination_by Frame.weights frames
decreasing_by
  · exact Frame.weights_enter_lt _ht o fs
  all_goals simp [Frame.weights, Frame.weight]; try omega

section
variable {m : Type → Type} [Monad m] {h : Host m}

/-- A slice that takes a statement. -/
theorem Host.run_take {f g : Frame} {s : Stmt} (ht : f.take? = some (s, g)) (fs : List Frame) :
    h.run (f :: fs) = (do
      if !(← h.alive) then return .finished
      else
        match ← h.resolve s with
        | .pause p => return .paused (g :: fs) p
        | .finish => return .finished
        | o => h.run (s.enter o ++ g :: fs)) := by
  rw [Host.run.eq_def]
  simp only
  split
  · rename_i s' g' ht'
    rw [ht] at ht'
    obtain ⟨rfl, rfl⟩ := ht'
    rfl
  · rename_i ht'
    rw [ht] at ht'
    contradiction

/-- A slice whose first frame has no statement left. -/
theorem Host.run_over {f : Frame} (ht : f.take? = none) (fs : List Frame) :
    h.run (f :: fs) = (do
      if !(← h.alive) then return .finished
      else
        match f with
        | .sequence _ => h.run fs
        | .loop kind body _ => return .paused (.turned kind body :: fs) .tick
        | .turned kind body =>
          match ← h.again kind with
          | some kind => h.run (.loop kind body body :: fs)
          | none => h.run fs) := by
  rw [Host.run.eq_def]
  simp only
  split
  · rename_i ht'
    rw [ht] at ht'
    contradiction
  · rfl

end

/-! ## Tasks -/

/-- One running instance of a behavior on an entity. -/
structure Task where
  entity : String
  behavior : Nat
  frames : List Frame
  waiting : Option Pause

/-- A behavior at its beginning. -/
def Task.new (entity : String) (b : Behavior) : Task := ⟨entity, b.id, [.sequence b.body], none⟩

end BlockStage
