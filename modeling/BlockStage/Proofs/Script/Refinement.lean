/-
  The script machine refines the structural meaning of scripts.

  1. **Program** — `Host.run`, watched by `Host.follow`: a stack of frames, a slice at a time, with
     the slices of one script set apart by its pauses.

  2. **Specification** — `Stmt.meanings`: recursion on the statements, where a loop is its turns.

  3. **The crux (`Host.run_follow`)** — a stack has a meaning too (`Frame.meanings`), the meaning of
     its frames one after the other.  One step of the machine keeps the meaning of the stack: taking
     a statement is `Stmt.meaning_eq`, and deciding about another turn is `Loop.meaning_eq`.  The
     induction is on the looks that are left and, for the same number of them, on the weight of the
     stack; a pause spends a look, and every other step makes the stack lighter.

  4. The machine asks more often than the meaning whether the script may go on, once for every frame
     that it drops.  That is harmless because asking changes nothing (`Host.Asks`), so a question
     right after another one may be left out (`Host.Asks.guarded_guarded`).

  5. **Histories** — a host that writes down whatever a script is seen to do is a host as well, so
     the two agree on the whole history of a script (`Stmt.machine_history`).
-/
import BlockStage.Script.Meaning
import BlockStage.Session.Tasks

namespace BlockStage

variable {m : Type → Type} [Monad m] {h : Host m} {w : Pacing m} {looks : Nat}

/-! ## Questions -/

/-- Asking whether a script may go on changes nothing. -/
structure Host.Asks (h : Host m) : Prop where
  twice : ∀ {β : Type} (f : Bool → Bool → m β),
    (do let a ← h.alive; let b ← h.alive; f a b) = (do let a ← h.alive; f a a)
  vain : ∀ {β : Type} (x : m β), (do let _ ← h.alive; x) = x

/-- Something done only if the script may go on. -/
def Host.guarded (h : Host m) (x : m (Option Pause)) : m (Option Pause) := do
  if !(← h.alive) then return none else x

namespace Host.Asks

/-- One question is as good as two. -/
theorem guarded_guarded (ha : h.Asks) (x : m (Option Pause)) :
    h.guarded (h.guarded x) = h.guarded x := by
  have twice := ha.twice fun a b => if !a then pure none else if !b then pure none else x
  have push : h.guarded (h.guarded x) = (do
      let a ← h.alive
      let b ← h.alive
      if !a then return none else if !b then return none else x) := by
    rw [guarded]
    refine bind_congr fun a => ?_
    cases a with
    | false => exact (ha.vain _).symm
    | true => rfl
  rw [push, twice]
  refine bind_congr fun a => ?_
  cases a <;> rfl

theorem guarded_over (ha : h.Asks) : h.guarded (pure none) = pure none := by
  rw [guarded]
  simp only [ite_self]
  exact ha.vain _

end Host.Asks

/-! ## Courses, opened -/

namespace Course

variable {α β : Type}

omit [Monad m] in
theorem pure_apply (a : α) (next : (left : Nat) → left ≤ looks → α → m (Option Pause)) :
    (pure a : Course m α) looks next = next looks (Nat.le_refl looks) a := rfl

omit [Monad m] in
theorem bind_apply (c : Course m α) (f : α → Course m β)
    (next : (left : Nat) → left ≤ looks → β → m (Option Pause)) :
    (c >>= f) looks next
      = c looks fun left h a => f a left fun left' h' b => next left' (Nat.le_trans h' h) b := rfl

theorem lift_apply (x : m α) (next : (left : Nat) → left ≤ looks → α → m (Option Pause)) :
    (liftM x : Course m α) looks next = x >>= next looks (Nat.le_refl looks) := rfl

theorem stop_apply (next : (left : Nat) → left ≤ looks → α → m (Option Pause)) :
    (stop : Course m α) looks next = pure none := rfl

theorem await_apply (p : Pause) (next : (left : Nat) → left ≤ looks → Unit → m (Option Pause)) :
    await h w p looks next
      = awaiting h w p looks fun left hl => next left (Nat.le_of_lt hl) () := rfl

theorem goOn_apply (next : (left : Nat) → left ≤ looks → Unit → m (Option Pause)) :
    goOn h looks next = h.guarded (next looks (Nat.le_refl looks) ()) := by
  simp only [goOn, bind_apply, lift_apply, Host.guarded]
  refine bind_congr fun b => ?_
  cases b <;> rfl

theorem endTurn_apply (next : (left : Nat) → left ≤ looks → Unit → m (Option Pause)) :
    endTurn h w looks next
      = h.guarded (awaiting h w .tick looks fun left hl => next left (Nat.le_of_lt hl) ()) := by
  rw [endTurn, bind_apply, goOn_apply, await_apply]

theorem untilTrue_apply (test : m Bool) (turn : Course m Unit)
    (next : (left : Nat) → left ≤ looks → Unit → m (Option Pause)) :
    untilTrue h w test turn looks next = (do
      if ← test then next looks (Nat.le_refl looks) ()
      else
        turn looks fun left hl _ => endTurn h w left fun left' hl' _ =>
          untilTrue h w test turn left' fun last hlast u => next last (by omega) u) := by
  rw [untilTrue, turning]
  simp only [endTurn_apply]
  rfl

/-- After a tick the script is asked for anyway. -/
theorem awaiting_tick [LawfulMonad m] (ha : h.Asks)
    (next : (left : Nat) → left < looks → m (Option Pause)) :
    awaiting h w .tick looks (fun left hl => h.guarded (next left hl))
      = awaiting h w .tick looks next := by
  cases looks with
  | zero => rfl
  | succ looks =>
    have tick : ∀ next : (left : Nat) → left < looks + 1 → m (Option Pause),
        awaiting h w .tick (looks + 1) next
          = w.between .tick >>= fun _ => h.guarded (next looks (Nat.lt_succ_self looks)) := by
      intro next
      rw [awaiting, Host.isOver, Host.guarded]
      simp only [pure_bind, Bool.not_true, Bool.false_eq_true, if_false]
    rw [tick, tick, ha.guarded_guarded]

end Course

/-! ## The meaning of a stack -/

/-- What is left of a loop when the pause after a turn is over. -/
def Loop.meaning (h : Host m) (w : Pacing m) (body : List Stmt) : Loop → Course m Unit
  | .times n => Course.turns h w (Stmt.meanings h w body) (n - 1)
  | .untilTrue condition =>
    Course.untilTrue h w (do return (← h.eval condition).toBool) (Stmt.meanings h w body)
  | .each name index count =>
    Course.counted h w name (Stmt.meanings h w body) (index + 1) (count - index)

namespace Frame

/-- The meaning of a frame. -/
def meaning (h : Host m) (w : Pacing m) : Frame → Course m Unit
  | .sequence rest => Stmt.meanings h w rest
  | .loop kind body rest => do
    Stmt.meanings h w rest
    Course.endTurn h w
    kind.meaning h w body
  | .turned kind body => do
    Course.goOn h
    kind.meaning h w body

/-- The meaning of a stack: its frames one after the other. -/
def meanings (h : Host m) (w : Pacing m) : List Frame → Course m Unit
  | [] => return ()
  | f :: fs => do
    f.meaning h w
    meanings h w fs

theorem meanings_append (fs gs : List Frame)
    (next : (left : Nat) → left ≤ looks → Unit → m (Option Pause)) :
    meanings h w (fs ++ gs) looks next
      = meanings h w fs looks fun left hl _ =>
          meanings h w gs left fun left' hl' u => next left' (Nat.le_trans hl' hl) u := by
  -- the looks vary: each frame may use some of them up before the next one begins
  induction fs generalizing looks with
  | nil => rfl
  | cons f fs ih =>
    rw [List.cons_append, meanings, meanings, Course.bind_apply, Course.bind_apply]
    simp only [ih]

/-- The next statement of a frame comes first, and the frame after it comes next. -/
theorem meanings_take {f g : Frame} {s : Stmt} (ht : f.take? = some (s, g)) (fs : List Frame)
    (next : (left : Nat) → left ≤ looks → Unit → m (Option Pause)) :
    meanings h w (f :: fs) looks next
      = s.meaning h w looks fun left hl _ =>
          meanings h w (g :: fs) left fun left' hl' u => next left' (Nat.le_trans hl' hl) u := by
  cases f with
  | turned kind body => simp [take?] at ht
  | sequence rest | loop kind body rest =>
    cases rest with
    | nil => simp [take?] at ht
    | cons s' rest =>
      simp only [take?, Option.some.injEq, Prod.mk.injEq] at ht
      obtain ⟨rfl, rfl⟩ := ht
      rfl

theorem start_turned (kind : Loop) (body : List Stmt) (fs : List Frame) :
    (meanings h w (.turned kind body :: fs)).start looks
      = h.guarded (kind.meaning h w body looks fun left _ _ => (meanings h w fs).start left) := by
  rw [Course.start, meanings, meaning, Course.bind_apply, Course.bind_apply, Course.goOn_apply]
  rfl

theorem start_loop (kind : Loop) (body : List Stmt) (fs : List Frame) :
    (meanings h w (.loop kind body [] :: fs)).start looks
      = h.guarded (Course.awaiting h w .tick looks fun left _ =>
          kind.meaning h w body left fun left' _ _ => (meanings h w fs).start left') := by
  rw [Course.start, meanings, meaning, Stmt.meanings, Course.bind_apply, Course.bind_apply,
    Course.pure_apply, Course.bind_apply, Course.endTurn_apply]
  rfl

end Frame

section
variable [LawfulMonad m]

/-! ## One step of the machine -/

/-- A statement does what it does by itself, and then what it leaves on the stack is done. -/
theorem Stmt.meaning_eq (s : Stmt)
    (next : (left : Nat) → left ≤ looks → Unit → m (Option Pause)) :
    s.meaning h w looks next = h.guarded (do
      match ← h.resolve s with
      | .pause p => Course.awaiting h w p looks fun left hl => next left (Nat.le_of_lt hl) ()
      | .finish => return none
      | o => Frame.meanings h w (s.enter o) looks next) := by
  cases s with
  | action a =>
    rw [meaning, Course.bind_apply, Course.goOn_apply, Course.bind_apply, Course.lift_apply,
      Host.resolve, bind_assoc]
    refine congrArg h.guarded (bind_congr fun flow => ?_)
    cases flow <;>
      simp [enter, Frame.meanings, Course.pure_apply, Course.bind_apply, Course.lift_apply,
        Course.await_apply, Course.stop_apply]
  | forever loop body =>
    simp only [meaning, Host.resolve, Course.bind_apply, Course.goOn_apply, Course.lift_apply,
      Course.stop_apply, bind_assoc, pure_bind]
  | branch condition yes no =>
    cases no <;>
    · rw [meaning, Course.bind_apply, Course.goOn_apply, Course.bind_apply, Course.lift_apply,
        Host.resolve, bind_assoc]
      refine congrArg h.guarded (bind_congr fun v => ?_)
      cases v.toBool <;>
        simp [enter, Frame.meanings, Frame.meaning, Course.pure_apply, Course.bind_apply]
  | repeatTimes times body =>
    rw [meaning, Course.bind_apply, Course.goOn_apply, Course.bind_apply, Course.lift_apply,
      Host.resolve, bind_assoc]
    refine congrArg h.guarded (bind_congr fun v => ?_)
    generalize toNat64 (roundOf v.toNumber) = n
    cases n <;>
      simp [enter, Frame.meanings, Frame.meaning, Loop.meaning, Course.turns, Course.pure_apply,
        Course.bind_apply]
  | repeatUntil condition body =>
    rw [meaning, Course.bind_apply, Course.goOn_apply, Course.untilTrue_apply, Host.resolve,
      bind_assoc, bind_assoc]
    refine congrArg h.guarded (bind_congr fun v => ?_)
    rw [pure_bind, pure_bind]
    cases v.toBool <;>
      simp [enter, Frame.meanings, Frame.meaning, Loop.meaning, Course.pure_apply,
        Course.bind_apply]
  | waitUntil condition =>
    rw [meaning, Course.bind_apply, Course.goOn_apply, Course.bind_apply, Course.lift_apply,
      Host.resolve, bind_assoc]
    refine congrArg h.guarded (bind_congr fun v => ?_)
    cases v.toBool <;> simp [enter, Frame.meanings, Course.pure_apply, Course.await_apply]
  | forEach name count body =>
    rw [meaning, Course.bind_apply, Course.goOn_apply, Course.bind_apply, Course.lift_apply,
      Host.resolve, bind_assoc]
    refine congrArg h.guarded (bind_congr fun v => ?_)
    generalize toNat64 (floorOf v.toNumber) = n
    cases n <;>
      simp [enter, Frame.meanings, Frame.meaning, Loop.meaning, Course.counted, Course.pure_apply,
        Course.bind_apply, Course.lift_apply]

theorem Loop.meaning_eq (kind : Loop) (body : List Stmt)
    (next : (left : Nat) → left ≤ looks → Unit → m (Option Pause)) :
    kind.meaning h w body looks next = (do
      match ← h.again kind with
      | some kind => Frame.meanings h w [.loop kind body body] looks next
      | none => next looks (Nat.le_refl looks) ()) := by
  cases kind with
  | times n =>
    rw [meaning, Host.again, pure_bind]
    -- a loop whose last turn is over, or that never had one, takes no other
    rcases n with _ | _ | n
    · rfl
    · rfl
    · rw [if_pos (by omega)]
      rfl
  | untilTrue condition =>
    rw [meaning, Course.untilTrue_apply, Host.again, bind_assoc, bind_assoc]
    refine bind_congr fun v => ?_
    rw [pure_bind, pure_bind]
    cases v.toBool <;> rfl
  | each name index count =>
    rw [meaning, Host.again]
    by_cases hi : index < count
    · have hn : count - index = count - (index + 1) + 1 := by omega
      rw [if_pos hi, bind_assoc, hn, Course.counted, Course.bind_apply, Course.lift_apply]
      refine bind_congr fun _ => ?_
      rw [pure_bind]
      rfl
    · rw [if_neg hi, pure_bind, Nat.sub_eq_zero_of_le (Nat.le_of_not_lt hi)]
      rfl

/-- Whatever is first on a stack asks whether the script may go on. -/
theorem Frame.guarded_start (ha : h.Asks) (frames : List Frame) :
    h.guarded ((meanings h w frames).start looks) = (meanings h w frames).start looks := by
  have taken : ∀ {f g : Frame} {s : Stmt} (_ : f.take? = some (s, g)) (fs : List Frame),
      h.guarded ((meanings h w (f :: fs)).start looks) = (meanings h w (f :: fs)).start looks := by
    intro f g s ht fs
    rw [Course.start, meanings_take ht, Stmt.meaning_eq, ha.guarded_guarded]
  induction frames with
  | nil => exact ha.guarded_over
  | cons f fs ih =>
    -- an empty sequence leaves the asking to the frame below, all other frames ask themselves
    rcases f with (_ | ⟨s, rest⟩) | ⟨kind, body, _ | ⟨s, rest⟩⟩ | ⟨kind, body⟩
    · exact ih
    · exact taken rfl fs
    · rw [start_loop, ha.guarded_guarded]
    · exact taken rfl fs
    · rw [start_turned, ha.guarded_guarded]

namespace Host

/-! ## The machine, watched -/

omit [LawfulMonad m] in
theorem follow_finished : h.follow w looks .finished = pure none := by
  cases looks <;> rfl

theorem follow_guarded (x : m Slice) :
    (do if !(← h.alive) then return .finished else x) >>= h.follow w looks
      = h.guarded (x >>= h.follow w looks) := by
  rw [bind_assoc, guarded]
  refine bind_congr fun alive => ?_
  cases alive with
  | false => exact (pure_bind _ _).trans follow_finished
  | true => rfl

/-- A paused script is a pause and then its stack, if the stack behaves for fewer looks. -/
theorem follow_paused (frames : List Frame) (p : Pause)
    (ih : ∀ left, left < looks →
      h.run frames >>= h.follow w left = (Frame.meanings h w frames).start left) :
    h.follow w looks (.paused frames p)
      = Course.awaiting h w p looks fun left _ => (Frame.meanings h w frames).start left := by
  -- a look that finds the pause not over is used up, and the stack stays as it is
  induction looks with
  | zero => rfl
  | succ looks again =>
    rw [follow, Course.awaiting, look]
    refine bind_congr fun _ => ?_
    rw [bind_assoc]
    refine bind_congr fun alive => ?_
    cases alive with
    | false => exact (pure_bind _ _).trans follow_finished
    | true =>
      simp only [Bool.not_true, Bool.false_eq_true, if_false, bind_assoc]
      refine bind_congr fun ended => ?_
      cases ended with
      | false =>
        rw [← again fun left hl => ih left (Nat.lt_succ_of_lt hl)]
        exact pure_bind _ _
      | true => exact ih looks (Nat.lt_succ_self looks)

/-- **The machine does what its stack means.** -/
theorem run_follow (ha : h.Asks) (looks : Nat) (frames : List Frame) :
    h.run frames >>= h.follow w looks = (Frame.meanings h w frames).start looks := by
  have paused : ∀ (frames : List Frame) (p : Pause),
      h.follow w looks (.paused frames p)
        = Course.awaiting h w p looks fun left _ => (Frame.meanings h w frames).start left :=
    fun frames p => follow_paused frames p fun left _ => run_follow ha left frames
  -- the machine and the meaning agree statement by statement; only a pause uses up a look
  match frames with
  | [] =>
    rw [run.eq_def, follow_guarded, pure_bind, follow_finished]
    exact ha.guarded_over
  | f :: fs =>
    match ht : f.take? with
    | some (s, g) =>
      rw [run_take ht, follow_guarded, Course.start, Frame.meanings_take ht, Stmt.meaning_eq,
        bind_assoc]
      refine congrArg h.guarded (bind_congr fun o => ?_)
      have rest := run_follow ha looks (s.enter o ++ g :: fs)
      cases o with
      | pause p => exact (pure_bind _ _).trans (paused _ _)
      | finish => exact (pure_bind _ _).trans follow_finished
      | _ => exact rest.trans (Frame.meanings_append _ _ _)
    | none =>
      rw [run_over ht, follow_guarded]
      match f with
      | .sequence [] =>
        rw [← Frame.guarded_start ha]
        exact congrArg h.guarded (run_follow ha looks fs)
      | .loop kind body [] =>
        -- the machine asks when it goes on after the tick, the meaning also right after it
        rw [Frame.start_loop, ← Course.awaiting_tick ha, pure_bind, paused]
        simp only [Frame.start_turned]
      | .turned kind body =>
        rw [Frame.start_turned, Loop.meaning_eq, bind_assoc]
        refine congrArg h.guarded (bind_congr fun turn => ?_)
        cases turn with
        | none => exact run_follow ha looks fs
        | some kind => exact run_follow ha looks (.loop kind body body :: fs)
termination_by (looks, Frame.weights frames)
decreasing_by
  -- what follows a pause has fewer looks left, what follows anything else has less weight
  · exact Prod.Lex.left _ _ ‹_›
  · exact Prod.Lex.right _ (Frame.weights_enter_lt ht o fs)
  all_goals
    refine Prod.Lex.right _ ?_
    simp only [Frame.weights, Frame.weight]
    omega

end Host

end

/-! ## Histories -/

/-- What a script is seen to do. -/
inductive Observation where
  | evaluated (e : Expr) (v : Value)
  | performed (a : Action) (flow : Flow)
  | counted (name : String) (i : Nat)
  | looped (loop : Nat) (body : List Stmt)
  | reported (message : String)
  | paused (p : Pause)

section
variable {ε σ : Type}

/-- A step that is written down at the end of a history. -/
def recording {α : Type} (x : EStateM ε σ α) (seen : α → List Observation) :
    EStateM ε (σ × List Observation) α := fun s =>
  match x s.1 with
  | .ok a t => .ok a (t, s.2 ++ seen a)
  | .error e t => .error e (t, s.2)

/-- A host whose scripts may go on as long as a test of the state holds, and which keeps a
    history. -/
def Host.recorded (h : Host (EStateM ε σ)) (may : σ → Bool) :
    Host (EStateM ε (σ × List Observation)) where
  alive := do return may (← get).1
  eval e := recording (h.eval e) fun v => [.evaluated e v]
  perform a := recording (h.perform a) fun flow => [.performed a flow]
  count name i := recording (h.count name i) fun _ => [.counted name i]
  addLoop loop body := recording (h.addLoop loop body) fun _ => [.looped loop body]
  report message := recording (h.report message) fun _ => [.reported message]

/-- Surroundings in which every look at a pause is written down. -/
def Pacing.recorded (w : Pacing (EStateM ε σ)) : Pacing (EStateM ε (σ × List Observation)) where
  between p := recording (w.between p) fun _ => [.paused p]
  ended p := recording (w.ended p) fun _ => []

theorem Host.recorded_asks (h : Host (EStateM ε σ)) (may : σ → Bool) : (h.recorded may).Asks where
  twice _ := rfl
  vain _ := rfl

/-- **The machine has the history of the script's meaning**: whatever a script's surroundings
    answer and do, and for any number of looks, it evaluates, performs, counts, reports and pauses
    in the same order, and what it leaves behind is the same. -/
theorem Stmt.machine_history (h : Host (EStateM ε σ)) (may : σ → Bool) (w : Pacing (EStateM ε σ))
    (body : List Stmt) (looks : Nat) (s : σ) :
    ((h.recorded may).run [.sequence body] >>= (h.recorded may).follow w.recorded looks) (s, [])
      = (Stmt.meanings (h.recorded may) w.recorded body).start looks (s, []) := by
  rw [Host.run_follow (h.recorded_asks may)]
  rfl

end

/-! ## Tasks of a session -/

/-- The surroundings of a paused task: whatever the session does until the next look. -/
def Play.pacing (entity : String) (between : Pause → Play Unit) : Pacing Play where
  between := between
  ended p := Play.isReady ⟨entity, 0, [], some p⟩

theorem Play.isReady_eq_isOver (clone : String → Play Unit) (t : Task) (p : Pause)
    (between : Pause → Play Unit) (hp : t.waiting = some p) :
    Play.isReady t = (Play.host clone t.entity).isOver (Play.pacing t.entity between) p := by
  rw [Play.isReady, hp]
  cases p <;> rfl

/-- Letting a paused task go on is one look at its script. -/
theorem Play.resume_eq_look (t : Task) (p : Pause) (between : Pause → Play Unit)
    (hp : t.waiting = some p) :
    Play.resume t = (do
      match ← (Play.host Play.makeClone t.entity).look (Play.pacing t.entity between) t.frames p with
      | .finished =>
        Play.retire t
        return none
      | .paused frames p => return some { t with frames := frames, waiting := some p }) := by
  have same : t = { t with frames := t.frames, waiting := some p } := by rw [← hp]
  rw [Play.resume, Host.look, bind_assoc,
    Play.isReady_eq_isOver Play.makeClone t p between hp]
  refine bind_congr fun alive => ?_
  cases alive with
  | false => rfl
  | true =>
    simp only [Bool.not_true, Bool.false_eq_true, if_false, bind_assoc]
    refine bind_congr fun ended => ?_
    cases ended with
    | false => exact congrArg (fun t => (pure (some t) : Play (Option Task))) same
    | true =>
      simp only [Bool.not_true, Bool.false_eq_true, if_false, Play.runSlice, bind_assoc]
      refine bind_congr fun slice => ?_
      cases slice <;> simp only [pure_bind]

/-- **Scripts in a session mean what their statements mean**, whatever the session does between
    looks. -/
theorem Play.follow_eq_meaning (clone : String → Play Unit) (entity : String)
    (between : Pause → Play Unit) (body : List Stmt) (looks : Nat) :
    (Play.host clone entity).run [.sequence body]
        >>= (Play.host clone entity).follow (Play.pacing entity between) looks
      = (Stmt.meanings (Play.host clone entity) (Play.pacing entity between) body).start looks := by
  have asks : (Play.host clone entity).Asks := ⟨fun _ => rfl, fun _ => rfl⟩
  rw [Host.run_follow asks]
  rfl

end BlockStage
