/-
  Suspense: whose playback a suspended task waits for.

  1. **The invariant (`Session.Booked`)** — every suspended task that waits for a playback waits for
     one that was begun for its own entity, and no two wait for the same.  Tasks that are being
     resumed or have just been paused are not in the scheduler, so their playbacks are *owed*.

  2. **The crux (`Booked.perform`)** — a script that plays a sound till its end pauses at once, with
     the handle that it has just been given.  That handle was the next one, so nobody waits for it.

  3. **Runs** — what launching and resuming owe is given back when a task waits, and a task that goes
     on waits for nothing.  So every call restores the books with nothing owed
     (`booked_of_reachable`).
-/
import BlockStage.Proofs.Session.Playing
import BlockStage.Proofs.Session.Staying

namespace BlockStage

/-! ## What is waited for -/

/-- The playback that is waited for in a pause. -/
def Pause.playback? : Pause → Option Nat
  | .playback h => some h
  | _ => none

/-- The playback that a task waits for. -/
def Task.playback? (t : Task) : Option Nat := t.waiting.bind Pause.playback?

/-- The playback that a task waits for, under the name of its entity. -/
def Task.claim? (t : Task) : Option (String × Nat) := t.playback?.map fun h => (t.entity, h)

/-- The playbacks that tasks wait for. -/
def claims (l : List Task) : List (String × Nat) := l.filterMap Task.claim?

theorem claims_append (l m : List Task) : claims (l ++ m) = claims l ++ claims m :=
  List.filterMap_append

theorem claims_cons (t : Task) (l : List Task) : claims (t :: l) = claims [t] ++ claims l :=
  claims_append [t] l

/-- What a pause of an entity's script waits for. -/
def claimOf (entity : String) (p : Pause) : List (String × Nat) :=
  (p.playback?.map fun h => (entity, h)).toList

/-- What a task waits for when it has paused. -/
theorem claims_paused (t : Task) (frames : List Frame) (p : Pause) :
    claims [{ t with frames := frames, waiting := some p }] = claimOf t.entity p := by
  cases p <;> rfl

/-- A behavior at its beginning waits for nothing. -/
theorem claims_new (entity : String) (b : Behavior) : claims [Task.new entity b] = [] := rfl

namespace Session

/-- The tasks that wait, a paused start script included. -/
def suspended (s : Session) : List Task := s.scheduler.startTask.toList ++ s.scheduler.waiting

/-- Suspended tasks, and those whose playbacks are owed, wait each for a playback of its own. -/
structure Booked (owed : List (String × Nat)) (s : Session) : Prop where
  history : s.player.Reached
  once : ((claims s.suspended ++ owed).map Prod.snd).Nodup
  begun : ∀ e ∈ claims s.suspended ++ owed, s.player.Began e.1 e.2

variable {owed other : List (String × Nat)} {s t : Session}

theorem claims_suspended (s : Session) :
    claims s.suspended = claims s.scheduler.startTask.toList ++ claims s.scheduler.waiting :=
  claims_append _ _

namespace Booked

/-- When no more is waited for, all is booked as before. -/
theorem fewer (hs : s.Booked owed) (player : s.player.Evolves t.player)
    (h : (claims t.suspended ++ other).Subperm (claims s.suspended ++ owed)) : t.Booked other where
  history := hs.history.evolves player
  once := by
    obtain ⟨l, same, part⟩ := h
    exact (same.map Prod.snd).nodup_iff.mp ((part.map Prod.snd).nodup hs.once)
  begun e he := (hs.begun e (h.subset he)).evolves player

theorem apart (hs : s.Booked owed) (scheduler : t.scheduler = s.scheduler ∨ t.scheduler = .idle)
    (player : s.player.Evolves t.player) : t.Booked owed := by
  refine hs.fewer player ?_
  rcases scheduler with same | idle
  · rw [suspended, suspended, same]
  · rw [suspended, idle]
    exact (List.sublist_append_right _ owed).subperm

theorem perm (hs : s.Booked owed) (h : owed.Perm other) : s.Booked other :=
  hs.fewer (.refl _) (h.symm.append_left _).subperm

/-- What is owed need not be. -/
theorem drop (hs : s.Booked (other ++ owed)) : s.Booked owed :=
  hs.fewer (.refl _) ((List.sublist_append_right other owed).append_left _).subperm

/-- Tasks are moved about. -/
theorem schedule (hs : s.Booked owed) {q : Scheduler}
    (h : (claims q.startTask.toList ++ (claims q.waiting ++ other)).Perm
      (claims s.scheduler.startTask.toList ++ (claims s.scheduler.waiting ++ owed))) :
    ({ s with scheduler := q } : Session).Booked other := by
  refine hs.fewer (.refl _) ?_
  rw [claims_suspended, claims_suspended, List.append_assoc, List.append_assoc]
  exact h.subperm

/-- Whatever is moved about besides. -/
theorem scheduled (hs : s.Booked owed) {q : Scheduler} (start : q.startTask = s.scheduler.startTask)
    (waiting : q.waiting = s.scheduler.waiting) :
    ({ s with scheduler := q } : Session).Booked owed := by
  refine hs.schedule ?_
  rw [start, waiting]

theorem idle (hs : s.Booked owed) : ({ s with scheduler := .idle } : Session).Booked owed :=
  hs.apart (.inr rfl) (.refl _)

/-- A playback that begins may be waited for, since nobody waits for it yet. -/
theorem play (hs : s.Booked owed) {entity : String} {sound : BlockStage.Sound} {now : Float} {h : Nat}
    {stop : Option Float} (answer : (s.player.play entity sound now).1 = .ok (h, stop)) :
    ({ s with player := (s.player.play entity sound now).2 } : Session).Booked
      ((entity, h) :: owed) := by
  have evolves : s.player.Evolves (s.player.play entity sound now).2 :=
    .one (.play entity sound now)
  have next : h = s.player.nextHandle := by
    have begun : (Player.Op.play entity sound now).begun? s.player = some (h, stop) := by
      rw [Player.Op.begun?, answer]
      rfl
    exact (Player.begun_eq begun).1
  have old := hs.fewer (t := { s with player := (s.player.play entity sound now).2 }) evolves
    (.refl _)
  have front : (claims s.suspended ++ (entity, h) :: owed).Perm
      ((entity, h) :: (claims s.suspended ++ owed)) := List.perm_middle
  refine ⟨old.history, ?_, fun e he => ?_⟩
  · refine ((front.map Prod.snd).nodup_iff).mpr (List.nodup_cons.mpr ⟨fun known => ?_, old.once⟩)
    obtain ⟨e, he, same⟩ := List.mem_map.mp known
    exact Nat.ne_of_lt (hs.begun e he).lt (same.trans next)
  · rcases List.mem_cons.mp (front.mem_iff.mp he) with rfl | he
    · exact hs.history.began answer
    · exact old.begun e he

end Booked

/-- What is booked is kept by whatever is put together from attempts. -/
theorem trying_booked (owed : List (String × Nat)) :
    Play.Trying fun {α} => Play.Restores (Booked owed) (α := α) where
  bind hp hf s hs := (hp s hs).bind fun a t ht => hf a t ht
  attempt {α f} hf _ s hs := by
    have kept : (f s).2.Booked owed := hs.apart (hf.deeds s).carries.scheduler (hf.player s)
    rw [Play.After, Play.attempt]
    rcases hr : f s with ⟨_ | _, t⟩
    · trivial
    · rw [hr] at kept
      exact kept

/-! ## Slices -/

/-- A step of a script that may ask it to pause, but not for a playback. -/
theorem after_silent {α : Type} {p : Play α} {pause : Pause → α} {entity : String}
    (kept : Play.After p s fun _ t => t.Booked owed)
    (silent : Play.After p s fun a _ => ∀ q, a = pause q → q.playback? = none) :
    Play.After p s fun a t => ∀ q, a = pause q → t.Booked (claimOf entity q ++ owed) := by
  refine (kept.and silent).mono fun flow t ht q hq => ?_
  rw [claimOf, ht.2 q hq]
  exact ht.1

section
variable {clone : String → Play Unit}
  (hc : ∀ source, Play.Restores (Booked owed) (clone source))
include hc

/-- **A script that pauses for a playback** has just been given its handle. -/
theorem Booked.perform (hs : s.Booked owed) (entity : String) (a : Action) :
    Play.After (Play.perform clone entity a) s fun flow t =>
      ∀ p, flow = .pause p → t.Booked (claimOf entity p ++ owed) := by
  have hP := (trying_booked owed).closed
  have kept := hP.perform hc entity a s hs
  cases a with
  | glide seconds x y =>
    refine after_silent kept ?_
    refine (Play.After.any _ s).bind fun _ s _ => (Play.After.any _ s).bind fun _ s _ =>
      (Play.After.any _ s).bind fun _ s _ => (Play.After.any _ s).bind fun g s _ => ?_
    cases g with
    | some g =>
      rintro _ ⟨⟩
      rfl
    | none => exact fun _ h => (by cases h)
  | wait seconds =>
    refine after_silent kept ?_
    refine (Play.After.any _ s).bind fun d s _ => (Play.After.any _ s).bind fun now s _ => ?_
    rintro _ ⟨⟩
    split <;> rfl
  | playSound key wait =>
    refine (hP.text entity key s hs).bind fun key t ht => ?_
    refine Play.After.bind (p := Play.playSound entity key)
      (Q := fun handle u => u.Booked ((handle.map fun h => (entity, h)).toList ++ owed)) ?_ ?_
    · refine Play.After.bind (Q := fun _ u => u.Booked owed) ht fun sound u hu => ?_
      cases sound with
      | none => exact hu
      | some sound =>
        refine Play.After.bind (Q := fun played v => ∀ h stop, played = .ok (h, stop) →
          v.Booked ((entity, h) :: owed)) (fun h stop answer => hu.play answer) fun played v hv => ?_
        rcases played with e | ⟨h, stop⟩
        · trivial
        · exact (hv h stop rfl).apart (.inl rfl) (.refl _)
    · intro handle u hu
      cases handle with
      | none =>
        exact ((unpausing_complain _ _ _).flows u).mono fun _ _ never p hp => absurd hp (never p)
      | some h =>
        cases wait with
        | false => exact fun _ h => (by cases h)
        | true =>
          rintro _ ⟨⟩
          exact hu
  | _ => exact ((unpausing_perform entity id).flows s).mono fun _ _ never p hp => absurd hp (never p)

/-- So does whatever a statement does by itself. -/
theorem Booked.resolve (hs : s.Booked owed) (entity : String) (st : Stmt) :
    Play.After ((Play.host clone entity).resolve st) s fun o t =>
      t.Booked owed ∧ ∀ p, o = .pause p → t.Booked (claimOf entity p ++ owed) := by
  have hP := (trying_booked owed).closed
  have kept := hP.resolve (h := Play.host clone entity) (hP.evaluate entity) (hP.perform hc entity)
    (fun name i => hP.skilled (skill_setVariable _ name _).change)
    (fun _ => hP.skilled (skill_note _ _)) st
    (fun loop body _ => hP.change (tidy_addLoop _ loop body)) s hs
  refine kept.and ?_
  -- statements that are no actions pause for a condition at most
  have answered {α : Type} (p : Play α) (f : α → Outcome)
      (h : ∀ a q, f a = .pause q → q.playback? = none) :
      Play.After (p >>= fun a => pure (f a)) s
        fun o _ => ∀ q, o = .pause q → q.playback? = none :=
    (Play.After.any p s).bind fun a _ _ => h a
  cases st with
  | action a =>
    refine (Booked.perform hc hs entity a).bind fun flow u hu => ?_
    cases flow with
    | pause p =>
      rintro _ ⟨⟩
      exact hu p rfl
    | fail message => exact (Play.After.any _ u).bind fun _ _ _ _ h => (by cases h)
    | _ => exact fun _ h => (by cases h)
  | forever loop body =>
    exact after_silent kept (answered _ (fun _ => .finish) fun _ _ h => by cases h)
  | branch condition yes no =>
    refine after_silent kept (answered _ _ fun v q h => ?_)
    split at h <;> cases h
  | repeatTimes times body =>
    refine after_silent kept (answered _ _ fun v q h => ?_)
    split at h <;> cases h
  | repeatUntil condition body =>
    refine after_silent kept (answered _ _ fun v q h => ?_)
    split at h <;> cases h
  | waitUntil condition =>
    refine after_silent kept (answered _ _ fun v q h => ?_)
    split at h <;> cases h
    rfl
  | forEach name count body =>
    refine after_silent kept ((Play.After.any _ s).bind fun v u _ => ?_)
    dsimp only
    split
    · exact fun _ h => (by cases h)
    · exact (Play.After.any _ u).bind fun _ _ _ _ h => (by cases h)

/-- What is left of a task after a slice is owed. -/
theorem Booked.runSlice (t : Task) (hs : s.Booked owed) :
    Play.After (Play.runSlice clone t) s fun left u => u.Booked (claims left.toList ++ owed) := by
  have hP := (trying_booked owed).closed
  have evaluated := hP.evaluate t.entity
  have counted : ∀ name i, Play.Restores (Booked owed) ((Play.host clone t.entity).count name i) :=
    fun name i => hP.skilled (skill_setVariable _ name _).change
  have kept := hP.run (h := Play.host clone t.entity) (hP.ask _ fun _ _ => rfl) evaluated
    (hP.perform hc _) counted (fun loop body => hP.change (tidy_addLoop _ loop body))
    (fun _ => hP.skilled (skill_note _ _)) t.frames s hs
  have paused := run_paused (h := Play.host clone t.entity) (I := Booked owed) (A := fun _ => True)
    (Q := fun p u => u.Booked (claimOf t.entity p ++ owed)) (fun s hs => ⟨hs, fun _ => trivial⟩)
    (fun st s hs _ => Booked.resolve hc hs t.entity st) (hP.again evaluated counted)
    (fun s hs _ => hs) t.frames s hs
  refine (kept.and paused).bind fun r u hu => ?_
  cases r with
  | finished => exact hu.1
  | paused frames p =>
    show u.Booked (claims [{ t with frames := frames, waiting := some p }] ++ owed)
    rw [claims_paused]
    exact hu.2 frames p rfl

end

/-! ## Launching -/

namespace Booked

/-- A behavior that is launched may wait, and what it waits for is not owed then. -/
theorem launchWith {clone : String → Play Unit}
    (hc : ∀ source, Play.Restores (Booked owed) (clone source)) (entity : String) (b : Behavior) :
    Play.Restores (Booked owed) (Play.launchWith clone entity b) := by
  intro s hs
  refine Play.After.get_bind ?_
  split
  · exact hs
  · refine Play.After.bind (Q := fun _ u => u.Booked owed) ?_ fun _ u hu => ?_
    · obtain ⟨active, eq⟩ := s.scheduler.activate_eq entity b.id
      exact hs.scheduled ((congrArg Scheduler.startTask eq :)) ((congrArg Scheduler.waiting eq :))
    · refine (runSlice hc _ hu).bind fun left v hv => ?_
      cases left with
      | none => exact hv.scheduled rfl rfl
      | some t =>
        refine hv.schedule (.of_eq ?_)
        rw [claims_append, List.append_assoc]
        rfl

theorem requestClone (hs : s.Booked owed) (source : String) :
    (s.requestClone source).2.Booked owed :=
  hs.apart (.inl (s.scheduler_requestClone source)) (s.spares_requestClone source).player

theorem createClone (owed : List (String × Nat)) (source : String) :
    Play.Restores (Booked owed) (Play.createClone source) := by
  have hP := (trying_booked owed).closed
  have request : ∀ source, Play.Restores (Booked owed)
      (Play.changing fun s => s.requestClone source) := fun source _ hs => hs.requestClone source
  have next : Play.Restores (Booked owed) Play.nextCloneStart := by
    intro s hs
    rw [Play.After]
    cases queue : s.cloneStarts with
    | nil =>
      rw [Play.nextCloneStart_nil queue]
      exact hs
    | cons id rest =>
      rw [Play.nextCloneStart_cons queue]
      exact hs.apart (.inl rfl) (.refl _)
  have launches := launchWith fun source => hP.queueClone (request source)
  exact hP.createClone (hP.launching launches) next (fun _ _ => trivial) (request source)
    (fun h s hs => h s s hs) fun _ _ hs => hs.apart (.inl rfl) (.refl _)

theorem makeClone (owed : List (String × Nat)) (source : String) :
    Play.Restores (Booked owed) (Play.makeClone source) :=
  (trying_booked owed).closed.discarded (createClone owed source)

/-! ## Resuming -/

/-- What a task that is taken up waits for is owed until it is known whether it goes on. -/
theorem resume (t : Task) (hs : s.Booked (claims [t] ++ owed)) :
    Play.After (Play.resume t) s fun left u => u.Booked (claims left.toList ++ owed) := by
  refine Play.After.bind (Q := fun _ u => u.Booked (claims [t] ++ owed)) hs fun may u hu => ?_
  cases may with
  | false => exact hu.drop.scheduled rfl rfl
  | true =>
    refine ((trying_booked _).closed.isReady t u hu).bind fun ready v hv => ?_
    cases ready with
    | false => exact hv
    | true =>
      refine (runSlice (makeClone owed) t hv.drop).bind fun left w hw => ?_
      cases left with
      | none => exact hw.scheduled rfl rfl
      | some u => exact hw

theorem resumeEach (l : List Task) (hs : s.Booked (claims l ++ owed)) :
    Play.After (Play.resumeEach l) s fun left u => u.Booked (claims left ++ owed) := by
  induction l generalizing s owed with
  | nil => exact hs
  | cons t rest ih =>
    rw [claims_cons, List.append_assoc] at hs
    refine (hs.resume t).bind fun first u hu => ?_
    -- what is left of the first task goes behind the rest, which is owed first then
    refine (ih (hu.perm (List.perm_append_comm_assoc _ _ _))).bind fun others v hv => ?_
    show v.Booked (claims (first.toList ++ others) ++ owed)
    rw [claims_append, List.append_assoc]
    exact hv.perm (List.perm_append_comm_assoc _ _ _)

theorem takeWaiting (hs : s.Booked owed) :
    Play.After Play.takeWaiting s fun l u => u.Booked (claims l ++ owed) := hs.schedule (.refl _)

/-- Those that still wait are put back before those that have paused meanwhile. -/
theorem putBack {still : List Task} (hs : s.Booked (claims still ++ owed)) :
    ({ s with
      scheduler := { s.scheduler with waiting := still ++ s.scheduler.waiting } } : Session).Booked
      owed := by
  refine hs.schedule (.append_left _ ?_)
  rw [claims_append, List.append_assoc]
  exact List.perm_append_comm_assoc _ _ _

theorem resumeAll (owed : List (String × Nat)) : Play.Restores (Booked owed) Play.resumeAll := by
  intro s hs
  refine hs.takeWaiting.bind fun waiting t ht => ?_
  refine (ht.resumeEach waiting).bind fun still u hu => ?_
  refine Play.After.ask_bind ?_
  split
  · exact hu.putBack
  · exact hu.drop

/-! ## The start phase -/

/-- A start script that has paused takes the place of any other. -/
theorem park (t : Task) (hs : s.Booked (claims [t] ++ owed)) :
    ({ s with scheduler := { s.scheduler with startTask := some t } } : Session).Booked owed := by
  refine hs.fewer (.refl _) ?_
  rw [claims_suspended, claims_suspended, List.append_assoc, List.append_assoc]
  refine List.Subperm.trans ?_ (List.sublist_append_right _ _).subperm
  exact (List.perm_append_comm_assoc _ _ _).subperm

/-- A start script that is taken up owes what it waited for. -/
theorem fetch {t : Task} (paused : s.scheduler.startTask = some t) (hs : s.Booked owed) :
    ({ s with scheduler := { s.scheduler with startTask := none } } : Session).Booked
      (claims [t] ++ owed) := by
  refine hs.schedule ?_
  rw [paused]
  show (claims s.scheduler.waiting ++ (claims [t] ++ owed)).Perm _
  exact List.perm_append_comm_assoc _ _ _

theorem runStarts (owed : List (String × Nat)) (l : List (String × Behavior)) :
    Play.Restores (Booked owed) (Play.runStarts l) := by
  induction l with
  | nil =>
    intro s hs
    refine Play.After.ask_bind ?_
    split
    · refine Play.After.bind (Q := fun _ u => u.Booked owed) (hs.scheduled rfl rfl) fun _ u hu => ?_
      refine hu.apart (.inl ?_) (Play.spares_finishStart u).player
      rw [Play.finishStart, Play.foldl_renewTemplate]
      rfl
    · exact hs.idle
  | cons e rest ih =>
    intro s hs
    refine Play.After.ask_bind ?_
    split
    · refine Play.After.bind (Q := fun _ u => u.Booked owed) (hs.scheduled rfl rfl) fun _ u hu => ?_
      refine (runSlice (makeClone owed) _ hu).bind fun left v hv => ?_
      cases left with
      | none => exact ih v hv
      | some t => exact hv.park t
    · exact hs.idle

theorem continueStart (t : Task) (rest : List (String × Behavior)) (hs : s.Booked owed) :
    Play.After (Play.continueStart t rest) s fun _ u => u.Booked owed := by
  refine (runSlice (makeClone owed) t hs).bind fun left u hu => ?_
  cases left with
  | none => exact runStarts owed _ u hu
  | some t => exact hu.park t

theorem advanceStart (owed : List (String × Nat)) :
    Play.Restores (Booked owed) Play.advanceStart := by
  intro s hs
  refine Play.After.get_bind ?_
  split
  · exact hs
  split
  · exact hs.idle
  cases paused : s.scheduler.startTask with
  | none => exact runStarts owed _ s hs
  | some t =>
    refine Play.After.bind (Q := fun _ u => u.Booked (claims [t] ++ owed)) (hs.fetch paused)
      fun _ u hu => ?_
    have go : ∀ (waits : Bool) (v : Session), v.Booked (claims [t] ++ owed) →
        Play.After (if waits then Play.schedule fun q => { q with startTask := some t }
          else Play.continueStart t s.scheduler.startQueue) v fun _ w => w.Booked owed := by
      intro waits v hv
      cases waits with
      | true => exact hv.park t
      | false => exact hv.drop.continueStart t _
    cases s.mayRun t.entity with
    | false => exact go false u hu
    | true =>
      refine Play.After.bind (p := do return !(← Play.isReady t))
        (Q := fun _ v => v.Booked (claims [t] ++ owed)) ?_ go
      exact ((trying_booked _).closed.isReady t u hu).bind fun _ _ hv => hv

theorem start (owed : List (String × Nat)) : Play.Restores (Booked owed) Play.start := by
  intro s hs
  refine Play.After.ask_bind ?_
  split
  · exact hs.apart (.inl rfl) (.refl _)
  · refine Play.After.bind (Q := fun _ u => u.Booked owed) (hs.apart (.inl rfl) (.refl _))
      fun _ t ht => ?_
    refine Play.After.get_bind ?_
    refine Play.After.bind (Q := fun _ u => u.Booked owed) (ht.apart (.inl rfl) (.refl _))
      fun _ u hu => ?_
    refine Play.After.bind (Q := fun _ v => v.Booked owed) ?_ fun _ v hv => advanceStart owed v hv
    refine hu.fewer (.refl _) ?_
    rw [claims_suspended, claims_suspended]
    exact ((List.sublist_append_right _ _).append_right owed).subperm

/-! ## Calls -/

theorem launching (owed : List (String × Nat)) :
    Play.Launching (Play.Restores (Booked owed)) Play.launch fun _ => True :=
  (trying_booked owed).closed.launching (launchWith (makeClone owed))

theorem call (c : Call) : Play.Restores (Booked owed) c.run := by
  intro s hs
  by_cases plain : c.Plain
  · exact .of_last (hs.apart (carries_plain plain s).scheduler (Play.plays_call c s))
  · have hP := (trying_booked owed).closed.noting
    cases c with
    | script c =>
      exact hP.scriptCall (launching owed) (advanceStart owed) (resumeAll owed)
        (trying_booked owed).tick (start owed) (createClone owed) c s hs
    | broadcast message =>
      exact hs.apart (Deed.aside (s.aside_broadcast message)).carries.scheduler
        ((tidy_broadcast message).kept s).player
    | _ => exact absurd trivial plain

end Booked

/-- **The run invariant**: between calls nothing is owed. -/
theorem booked_of_reachable (h : Reachable s) : s.Booked [] := by
  induction h with
  | fresh config g budget =>
    exact ⟨⟨config.audioHistory, [], rfl⟩, List.nodup_nil, fun _ none => (List.not_mem_nil none).elim⟩
  | call c _ hc ih => exact (Booked.call c _ ih).of_eq hc

end Session

end BlockStage
