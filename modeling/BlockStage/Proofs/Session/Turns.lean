/-
  Turns: a task that waits for a playback waits as long as that is on, and no longer.

  1. **Specification (`Session.Fate`)** — in an update every suspended task has a turn.  At its turn
     only what was done to its own playback counts: if that is on, the task waits on as it is, and
     if it has ended, the task goes on and nobody waits for that playback any more.  A task whose
     entity may not run is dropped instead, also while its playback is on
     (`not_parked_while_playing`).

  2. **The crux (`turn_of_waiting`)** — an update is split at the turn of a task.  Before it others
     have their turns, which leave a waiting task alone, and after it what was put back is left
     alone.  What the task waited for is owed from then on, so nobody can wait for it.

  3. **Runs (`playbacks_of_reachable`)** — between updates the tasks of a running session stay
     suspended, whatever hosts do, and each waits for a playback of its own.
-/
import BlockStage.Proofs.Session.Settled
import BlockStage.Proofs.Session.Suspense

namespace BlockStage

open Player (Evolves Op)

namespace Play

/-! ## The parts of an update -/

/-- What an update does before tasks have their turns; answers the messages to be delivered. -/
def beginUpdate (dt : Float32) : Play (List String) := do
  let inbox ← takeInbox
  tick (Single.max dt 0)
  change fun s => s.stepPhysics (Single.max dt 0)
  countPhase "physics"
  return inbox

/-- What an update does after tasks have had their turns. -/
def endUpdate (inbox : List String) : Play Unit := do
  countPhase "tasks"
  runLoops
  countPhase "forever"
  if ← ask Session.running then deliverTouches
  countPhase "touching"
  if ← ask Session.running then deliverMessages inbox
  countPhase "messages"

variable {s v : Session} {dt : Float32}

theorem updateBy_eq_turns (dt : Float32) :
    updateBy dt =
      (do
        if ← ask Session.running then
          let inbox ← beginUpdate dt
          advanceStart
          resumeAll
          endUpdate inbox) := by
  simp only [updateBy, beginUpdate, endUpdate, bind_assoc, pure_bind]

/-- An update that returns has gone through its parts. -/
theorem parts_of_updateBy (running : s.running = true) (h : updateBy dt s = .ok () v) :
    ∃ inbox b r x, beginUpdate dt s = .ok inbox b ∧ advanceStart b = .ok () r ∧
      resumeAll r = .ok () x ∧ endUpdate inbox x = .ok () v := by
  have going : ask Session.running s = .ok true s := congrArg (EStateM.Result.ok · s) running
  rw [updateBy_eq_turns, bind_of_ok going, if_pos rfl] at h
  obtain ⟨inbox, b, begun, h⟩ := ok_of_bind h
  obtain ⟨_, r, advanced, h⟩ := ok_of_bind h
  obtain ⟨_, x, resumed, ended⟩ := ok_of_bind h
  exact ⟨inbox, b, r, x, begun, advanced, resumed, ended⟩

/-- Before tasks have their turns, playbacks end whose time has come. -/
theorem after_beginUpdate (dt : Float32) (s : Session) :
    After (beginUpdate dt) s fun _ b => b.scheduler = s.scheduler ∧ b.running = s.running ∧
      b.player = s.player.prune b.now := by
  refine After.bind (p := takeInbox) (Q := fun _ t => t.scheduler = s.scheduler ∧
    t.running = s.running ∧ t.player = s.player) ⟨rfl, rfl, rfl⟩ fun inbox t ht => ?_
  refine After.bind (Q := fun _ t => t.scheduler = s.scheduler ∧ t.running = s.running ∧
    t.player = s.player) ?_ fun _ u hu => ?_
  · rw [tick]
    split
    · exact ht
    · trivial
  · refine ⟨hu.1, hu.2.1, ?_⟩
    rw [← hu.2.2]
    rfl

/-- What comes after the turns is launching, asking and telling hosts. -/
theorem Noting.endUpdate {P : ∀ {α : Type}, Play α → Prop} (hP : Noting @P)
    (hl : Launching @P launch fun _ => True) (inbox : List String) : P (endUpdate inbox) :=
  hP.bind (hP.countPhase _) fun _ => hP.bind (hP.runLoops hl) fun _ =>
    hP.bind (hP.countPhase _) fun _ => hP.deliveries hl inbox

theorem Plays.ok {α : Type} {p : Play α} (hp : Plays p) {a : α} (h : p s = .ok a v) :
    s.player.Evolves v.player := last_of_ok h ▸ hp s

theorem plays_endUpdate (inbox : List String) : Plays (endUpdate inbox) :=
  thorough_plays.noting.endUpdate (thorough_plays.launching
    (thorough_plays.launchWith plays_makeClone)) inbox

/-- Taking up two lists of tasks is taking up one after the other. -/
theorem resumeEach_append (l m : List Task) :
    resumeEach (l ++ m) = (do
      let first ← resumeEach l
      let others ← resumeEach m
      return first ++ others) := by
  induction l with
  | nil => simp only [List.nil_append, resumeEach, pure_bind, bind_pure]
  | cons t rest ih =>
    simp only [List.cons_append, resumeEach, ih, bind_assoc, pure_bind, List.append_assoc]

/-- **The turns are split at one task**: others have theirs before and afterwards, and in the end all
    that are left are put back. -/
theorem split_of_resumeAll {front behind : List Task} {task : Task} (h : resumeAll s = .ok () v)
    (running : v.running = true) (found : s.scheduler.waiting = front ++ task :: behind) :
    ∃ left u first w others y,
      resumeEach front { s with scheduler := { s.scheduler with waiting := [] } } = .ok left u ∧
      resume task u = .ok first w ∧ resumeEach behind w = .ok others y ∧
      v = { y with
        scheduler := { y.scheduler with
          waiting := left ++ (first.toList ++ others) ++ y.scheduler.waiting } } := by
  obtain ⟨waiting, t, taken, h⟩ := ok_of_bind h
  cases taken
  rw [found, resumeEach_append] at h
  obtain ⟨still, y, turns, h⟩ := ok_of_bind h
  obtain ⟨left, u, earlier, turns⟩ := ok_of_bind turns
  obtain ⟨_, _, turn, turns⟩ := ok_of_bind turns
  cases turns
  obtain ⟨first, w, turned, turn⟩ := ok_of_bind turn
  obtain ⟨others, _, later, turn⟩ := ok_of_bind turn
  cases turn
  refine ⟨left, u, first, w, others, y, earlier, turned, later, ?_⟩
  have asked : ask Session.running y = .ok y.running y := rfl
  rw [bind_of_ok asked] at h
  split at h
  · cases h
    rfl
  · rename_i idle
    cases h
    exact absurd running idle

end Play

namespace Session

variable {s t u v b : Session} {dt : Float32} {task : Task} {h : Nat}

/-! ## The specification -/

/-- In an update a suspended task has its turn at this moment.  The update has begun with the first of
    these sessions, and at the turn it has come to the second one: the paused start script has been
    fetched, or the tasks that wait before this one have had their turns. -/
inductive TurnOf (dt : Float32) (s : Session) (task : Task) : Session → Session → Prop where
  | starting {inbox : List String} {b : Session} (begun : Play.beginUpdate dt s = .ok inbox b)
    (phase : b.scheduler.starting = true) (paused : b.scheduler.startTask = some task) :
    TurnOf dt s task b { b with scheduler := { b.scheduler with startTask := none } }
  | waiting {inbox : List String} {b r u : Session} {before behind left : List Task}
    (begun : Play.beginUpdate dt s = .ok inbox b) (advanced : Play.advanceStart b = .ok () r)
    (found : r.scheduler.waiting = before ++ task :: behind)
    (resumed : Play.resumeEach before
      { r with scheduler := { r.scheduler with waiting := [] } } = .ok left u) :
    TurnOf dt s task b u

/-- What becomes of a task that waits for a playback, at its turn in an update. -/
structure Fate (dt : Float32) (s : Session) (task : Task) (h : Nat) (v b u : Session) : Prop where
  comes : s.TurnOf dt task b u
  /-- Whether its playback is on is a matter of what was done since it began: before the update, when
      the update ended those whose time has come, and since then. -/
  decided : ∀ stop since, s.player.Since task.entity h stop since → ∃ ops,
    u.player.Since task.entity h stop (since ++ .prune b.now :: ops) ∧
    (u.player.isPlaying h = true ↔ ∀ e ∈ since ++ .prune b.now :: ops, ¬e.Ends h stop)
  /-- While its playback is on, it waits on as it is. -/
  parked : u.mayRun task.entity = true → u.player.isPlaying h = true → task ∈ v.suspended
  /-- So it does if its playback is still on after the update. -/
  still : u.mayRun task.entity = true → v.player.isPlaying h = true → task ∈ v.suspended
  /-- When its playback has ended, it goes on. -/
  woken : u.mayRun task.entity = true → u.player.isPlaying h = false →
    ∃ left w, Play.runSlice Play.makeClone task u = .ok left w ∧ w.player.Evolves v.player
  /-- When its playback has ended, or it may not go on, nobody waits for that playback any more. -/
  released : ¬(u.mayRun task.entity = true ∧ u.player.isPlaying h = true) →
    ∀ other ∈ v.suspended, other.playback? ≠ some h

/-! ## Waiting for a playback -/

end Session

theorem Task.waiting_of_playback? {t : Task} {h : Nat} (ht : t.playback? = some h) :
    t.waiting = some (.playback h) := by
  obtain ⟨p, waits, hp⟩ := Option.bind_eq_some_iff.mp ht
  rw [waits]
  cases p with
  | playback k =>
    cases hp
    rfl
  | _ => cases hp

theorem claims_of_playback? {t : Task} {h : Nat} (ht : t.playback? = some h) :
    claims [t] = [(t.entity, h)] := by
  rw [claims, List.filterMap_cons_some (b := (t.entity, h))]
  · rfl
  · rw [Task.claim?, ht]
    rfl

namespace Play

variable {task : Task} {h : Nat} {s u : Session}

/-- A task that waits for a playback is ready when that is not on. -/
theorem isReady_of_playback? (ht : task.playback? = some h) (u : Session) :
    isReady task u = .ok (!u.player.isPlaying h) u := by
  rw [isReady, Task.waiting_of_playback? ht]
  rfl

/-- While its playback is on, a task waits on. -/
theorem resume_of_playing (ht : task.playback? = some h) (may : u.mayRun task.entity = true)
    (on : u.player.isPlaying h = true) : resume task u = .ok (some task) u := by
  have asked : ask (fun s => s.mayRun task.entity) u = .ok true u :=
    congrArg (EStateM.Result.ok · u) may
  have looked := isReady_of_playback? ht u
  rw [on] at looked
  rw [resume, bind_of_ok asked]
  show (isReady task >>= _) u = _
  rw [bind_of_ok looked]
  rfl

/-- When its playback has ended, a task runs a slice. -/
theorem resume_of_ended (ht : task.playback? = some h) (may : u.mayRun task.entity = true)
    (off : u.player.isPlaying h = false) :
    resume task u = (do
      match ← runSlice makeClone task with
      | some t => return some t
      | none =>
        retire task
        return none : Play (Option Task)) u := by
  have asked : ask (fun s => s.mayRun task.entity) u = .ok true u :=
    congrArg (EStateM.Result.ok · u) may
  have looked := isReady_of_playback? ht u
  rw [off] at looked
  rw [resume, bind_of_ok asked]
  show (isReady task >>= _) u = _
  rw [bind_of_ok looked]
  rfl

/-- The paused start script is looked at in the same way. -/
theorem advanceStart_of_playback? (ht : task.playback? = some h) (running : s.running = true)
    (phase : s.scheduler.starting = true) (paused : s.scheduler.startTask = some task) :
    advanceStart s =
      (if s.mayRun task.entity && s.player.isPlaying h then
        schedule fun q => { q with startTask := some task }
      else continueStart task s.scheduler.startQueue)
      { s with scheduler := { s.scheduler with startTask := none } } := by
  have fetched : schedule (fun q => { q with startTask := none }) s
      = .ok () { s with scheduler := { s.scheduler with startTask := none } } := rfl
  have unfolded : advanceStart s = (do
      schedule fun q => { q with startTask := none }
      let waits ← if s.mayRun task.entity then (do return !(← isReady task)) else pure false
      if waits then schedule fun q => { q with startTask := some task }
      else continueStart task s.scheduler.startQueue) s := by
    rw [advanceStart]
    show (if !s.scheduler.starting then _ else _ : Play Unit) s = _
    simp only [phase, running, paused]
    rfl
  rw [unfolded, bind_of_ok fetched]
  cases s.mayRun task.entity with
  | false => rfl
  | true =>
    have looked := isReady_of_playback? ht
      { s with scheduler := { s.scheduler with startTask := none } }
    show ((isReady task >>= fun ready => pure !ready) >>= _) _ = _
    rw [bind_assoc, bind_of_ok looked]
    show (if !(!s.player.isPlaying h) then _ else _ : Play Unit) _ = _
    rw [Bool.not_not]
    rfl

end Play

namespace Session

variable {s t u v b r x : Session} {dt : Float32} {inbox : List String} {task : Task} {h : Nat}

/-! ## Before and after a turn -/

/-- A session that runs after a step that does nothing for idle ones has run before. -/
theorem running_before {α : Type} {p : Play α} (hp : Play.Restores (Holds fun _ => False) p) {a : α}
    (hs : p s = .ok a t) (running : t.running = true) : s.running = true := by
  by_contra idle
  exact (hp s fun running => idle running).of_eq hs running

theorem steady_false : Scheduler.Steady fun _ => False := ⟨fun _ h => h, fun _ h => h⟩

theorem holds_endUpdate {J : Scheduler → Prop} (hJ : Scheduler.Steady J) (inbox : List String) :
    Play.Restores (Holds J) (Play.endUpdate inbox) :=
  (trying_holds J).closed.noting.endUpdate (holds_launching hJ) inbox

theorem Booked.endUpdate (owed : List (String × Nat)) (inbox : List String) :
    Play.Restores (Booked owed) (Play.endUpdate inbox) :=
  (trying_booked owed).closed.noting.endUpdate (Booked.launching owed) inbox

/-- Nobody waits for a playback that is owed. -/
theorem Booked.nobody {entity : String} (hv : v.Booked [(entity, h)]) :
    ∀ other ∈ v.suspended, other.playback? ≠ some h := by
  intro other suspended waits
  have claimed : (other.entity, h) ∈ claims v.suspended :=
    List.mem_filterMap.mpr ⟨other, suspended, by rw [Task.claim?, waits]; rfl⟩
  have once := hv.once
  rw [List.map_append] at once
  exact (List.nodup_append.mp once).2.2 h (List.mem_map.mpr ⟨_, claimed, rfl⟩) h
    (List.mem_singleton_self h) rfl

/-- A task that does not wait on at its turn gives up what it waited for, so that is owed. -/
theorem Booked.yield {owed : List (String × Nat)} (ht : task.playback? = some h)
    (gone : ¬(u.mayRun task.entity = true ∧ u.player.isPlaying h = true))
    (hu : u.Booked (claims [task] ++ owed)) :
    Play.After (Play.resume task) u fun left w =>
      w.Booked (claims left.toList ++ (claims [task] ++ owed)) := by
  cases may : u.mayRun task.entity with
  | false =>
    refine Play.After.ask_bind ?_
    rw [may]
    exact hu.scheduled rfl rfl
  | true =>
    have off : u.player.isPlaying h = false := Bool.eq_false_iff.mpr fun on => gone ⟨may, on⟩
    rw [Play.After, Play.resume_of_ended ht may off]
    refine (Booked.runSlice (Booked.makeClone _) task hu).bind fun left w hw => ?_
    cases left with
    | none => exact hw.scheduled rfl rfl
    | some t => exact hw

/-- When all have had their turns, what a task has given up at its own is still owed. -/
theorem Booked.turns {front behind left others : List Task} {first : Option Task} {w y : Session}
    (hr : r.Booked []) (ht : task.playback? = some h)
    (gone : ¬(u.mayRun task.entity = true ∧ u.player.isPlaying h = true))
    (found : r.scheduler.waiting = front ++ task :: behind)
    (earlier : Play.resumeEach front
      { r with scheduler := { r.scheduler with waiting := [] } } = .ok left u)
    (turned : Play.resume task u = .ok first w) (later : Play.resumeEach behind w = .ok others y) :
    y.Booked (claims (left ++ (first.toList ++ others)) ++ claims [task]) := by
  have taken := hr.takeWaiting.of_eq rfl
  rw [found] at taken
  have before : u.Booked (claims left ++ (claims [task] ++ claims behind)) := by
    refine (Booked.resumeEach front (taken.perm ?_)).of_eq earlier
    rw [claims_append, claims_cons, List.append_nil]
  have turn : w.Booked (claims first.toList ++ (claims [task] ++ (claims behind ++ claims left))) := by
    refine (Booked.yield ht gone (before.perm ?_)).of_eq turned
    rw [← List.append_assoc (claims [task])]
    exact List.perm_append_comm
  have after : y.Booked (claims others ++ (claims first.toList ++ (claims [task] ++ claims left))) := by
    refine (Booked.resumeEach behind (turn.perm (List.perm_iff_count.mpr fun e => ?_))).of_eq later
    simp only [List.count_append]
    omega
  refine after.perm (List.perm_iff_count.mpr fun e => ?_)
  simp only [claims_append, List.count_append]
  omega

/-- What decides whether a task's playback is on at its turn. -/
theorem Fate.of_parts {b : Session} (hs : s.Booked []) (suspended : task ∈ s.suspended)
    (ht : task.playback? = some h) (comes : s.TurnOf dt task b u)
    (pruned : b.player = s.player.prune b.now) (before : b.player.Evolves u.player)
    (behind : u.player.Evolves v.player)
    (parked : u.mayRun task.entity = true → u.player.isPlaying h = true → task ∈ v.suspended)
    (woken : u.mayRun task.entity = true → u.player.isPlaying h = false →
      ∃ left w, Play.runSlice Play.makeClone task u = .ok left w ∧ w.player.Evolves v.player)
    (released : ¬(u.mayRun task.entity = true ∧ u.player.isPlaying h = true) →
      ∀ other ∈ v.suspended, other.playback? ≠ some h) : s.Fate dt task h v b u where
  comes := comes
  decided stop since hp := by
    obtain ⟨ops, evolved⟩ := before
    have later := (hp.after [.prune b.now]).after ops
    rw [List.append_assoc] at later
    have same : (s.player.after [.prune b.now]).after ops = u.player := by
      rw [evolved, pruned]
      rfl
    rw [same] at later
    exact ⟨ops, later, later.isPlaying_iff⟩
  parked := parked
  still may on := by
    have history : s.player.Evolves u.player :=
      Evolves.trans (pruned ▸ .one (.prune b.now)) before
    have claimed : (task.entity, h) ∈ claims s.suspended ++ [] :=
      List.mem_append_left _ (List.mem_filterMap.mpr ⟨task, suspended, by rw [Task.claim?, ht]; rfl⟩)
    have given := (hs.begun _ claimed).evolves history
    exact parked may (behind.isPlaying (hs.history.evolves history).orderly given.lt on)
  woken := woken
  released := released

/-! ## The turns -/

section
variable (hs : s.Booked []) (running : v.running = true) (ht : task.playback? = some h)
  (begun : Play.beginUpdate dt s = .ok inbox b) (advanced : Play.advanceStart b = .ok () r)
  (resumed : Play.resumeAll r = .ok () x) (ended : Play.endUpdate inbox x = .ok () v)
include hs running ht begun advanced resumed ended

/-- **The turn of a task that waits with others.** -/
theorem turn_of_waiting (waits : task ∈ s.scheduler.waiting) : ∃ u, s.Fate dt task h v b u := by
  obtain ⟨scheduler, -, pruned⟩ := (Play.after_beginUpdate dt s).of_eq begun
  have hb : b.Booked [] := hs.apart (.inl scheduler) (pruned ▸ .one (.prune b.now))
  have hr := (Booked.advanceStart [] b hb).of_eq advanced
  -- the session runs all along, so the task still waits when all are taken
  have runs_x := running_before (holds_endUpdate steady_false inbox) ended running
  have runs_r := running_before (holds_resumeAll steady_false fun _ h => h) resumed runs_x
  have stays : b.Holds fun q => task ∈ q.waiting := fun _ => scheduler ▸ waits
  obtain ⟨front, behind, found⟩ := List.append_of_mem
    ((holds_advanceStart (phased_waiting task) b stays).of_eq advanced runs_r)
  obtain ⟨left, u, first, w, others, y, earlier, turned, later, back⟩ :=
    Play.split_of_resumeAll resumed runs_x found
  have plays := Play.thorough_plays.toHousekeeping
  have next : w.player.Evolves v.player := by
    refine ((plays.resumeEach Play.plays_makeClone behind).ok later).trans ?_
    have same : x.player = y.player := by rw [back]
    exact same ▸ (Play.plays_endUpdate inbox).ok ended
  refine ⟨u, .of_parts hs (List.mem_append_right _ waits) ht
    (.waiting begun advanced found earlier) pruned ?_ ?_ ?_ ?_ ?_⟩
  · have others := (plays.resumeEach Play.plays_makeClone front).ok earlier
    exact ((plays.advanceStart Play.plays_makeClone).ok advanced).trans others
  · exact ((plays.resume Play.plays_makeClone task).ok turned).trans next
  · intro may on
    rw [Play.resume_of_playing ht may on] at turned
    cases turned
    have parked : x.Holds fun q => task ∈ q.waiting := by
      intro _
      rw [back]
      simp
    exact List.mem_append_right _
      ((holds_endUpdate (phased_waiting task).toSteady inbox x parked).of_eq ended running)
  · intro may off
    rw [Play.resume_of_ended ht may off] at turned
    obtain ⟨rest, w', slice, turned⟩ := Play.ok_of_bind turned
    refine ⟨rest, w', slice, Evolves.trans ?_ next⟩
    cases rest <;> (cases turned; exact .refl _)
  · intro gone
    have hx : x.Booked (claims [task]) := by
      rw [back]
      exact (hr.turns ht gone found earlier turned later).putBack
    have hv := (Booked.endUpdate (claims [task]) inbox x hx).of_eq ended
    exact Booked.nobody (claims_of_playback? ht ▸ hv)

/-- **The turn of the paused start script.** -/
theorem turn_of_starting (runs : s.running = true) (phase : s.Holds Phasing)
    (paused : s.scheduler.startTask = some task) : ∃ u, s.Fate dt task h v b u := by
  obtain ⟨scheduler, same, pruned⟩ := (Play.after_beginUpdate dt s).of_eq begun
  have starting : b.scheduler.starting = true := by
    rw [scheduler]
    exact phase runs (paused ▸ rfl)
  have waits : b.scheduler.startTask = some task := scheduler ▸ paused
  rw [Play.advanceStart_of_playback? ht (same.trans runs) starting waits] at advanced
  let u : Session := { b with scheduler := { b.scheduler with startTask := none } }
  have plays := Play.thorough_plays.toHousekeeping
  have next : r.player.Evolves v.player :=
    ((plays.resumeAll Play.plays_makeClone).ok resumed).trans
      ((Play.plays_endUpdate inbox).ok ended)
  refine ⟨u, .of_parts hs (List.mem_append_left _ (paused ▸ List.mem_singleton_self task)) ht
    (.starting begun starting waits) pruned (.refl _) ?_ ?_ ?_ ?_⟩
  · refine Evolves.trans ?_ next
    split at advanced
    · cases advanced
      exact .refl _
    · have went := (plays.continueStart Play.plays_makeClone task b.scheduler.startQueue).ok advanced
      exact went
  · intro may on
    have both : (b.mayRun task.entity && b.player.isPlaying h) = true :=
      Bool.and_eq_true_iff.mpr ⟨may, on⟩
    rw [if_pos both] at advanced
    cases advanced
    have steady : Scheduler.Steady fun q => q.startTask = some task :=
      ⟨fun _ h => h, fun _ h => h⟩
    have kept := (holds_resumeAll steady (fun _ h => h) _ fun _ => rfl).of_eq resumed
    have parked := (holds_endUpdate steady inbox x kept).of_eq ended running
    exact List.mem_append_left _ (parked ▸ List.mem_singleton_self task)
  · intro may off
    have past : ¬(b.mayRun task.entity && b.player.isPlaying h) = true :=
      fun both => Bool.false_ne_true (off.symm.trans (Bool.and_eq_true_iff.mp both).2)
    rw [if_neg past] at advanced
    obtain ⟨left, w, slice, rest⟩ := Play.ok_of_bind advanced
    refine ⟨left, w, slice, Evolves.trans ?_ next⟩
    cases left with
    | none => exact (plays.runStarts Play.plays_makeClone _).ok rest
    | some t =>
      cases rest
      exact .refl _
  · intro gone
    have past : ¬(b.mayRun task.entity && b.player.isPlaying h) = true :=
      fun both => gone (Bool.and_eq_true_iff.mp both)
    rw [if_neg past] at advanced
    have hb : b.Booked [] := hs.apart (.inl scheduler) (pruned ▸ .one (.prune b.now))
    have hu : u.Booked (claims [task]) := List.append_nil (claims [task]) ▸ hb.fetch waits
    have hr := (hu.continueStart task b.scheduler.startQueue).of_eq advanced
    have hx := (Booked.resumeAll (claims [task]) r hr).of_eq resumed
    have hv := (Booked.endUpdate (claims [task]) inbox x hx).of_eq ended
    exact Booked.nobody (claims_of_playback? ht ▸ hv)

end

/-! ## Sessions -/

/-- What can be said of the tasks of a session that wait for playbacks. -/
structure Playbacks (s : Session) : Prop where
  /-- What a session does to its player is no more than what can be done to one. -/
  history : s.player.Reached
  /-- A task waits for a playback that has been begun for its own entity, -/
  own : ∀ task ∈ s.suspended, ∀ h, task.playback? = some h → s.player.Began task.entity h
  /-- and no two wait for the same. -/
  apart : (s.suspended.filterMap Task.playback?).Nodup
  /-- As long as the session runs, no call wakes anyone but an update. -/
  between : ∀ (c : Call) (v : Session), c.time? s = none → c.run s = .ok () v → v.running = true →
    ∀ task ∈ s.suspended, task ∈ v.suspended
  /-- In an update that does not stop the session each of them has its turn. -/
  turns : ∀ (c : Call) (dt : Float32) (v : Session), c.time? s = some dt → c.run s = .ok () v →
    v.running = true → ∀ task ∈ s.suspended, ∀ h, task.playback? = some h →
    ∃ b u, s.Fate dt task h v b u

theorem claims_map_snd (l : List Task) : (claims l).map Prod.snd = l.filterMap Task.playback? := by
  rw [claims, List.map_filterMap]
  refine List.filterMap_congr fun t _ => ?_
  rw [Task.claim?, Option.map_map]
  exact Option.map_id_apply

/-- Where tasks are suspended, the session runs. -/
theorem running_of_suspended (hs : Reachable s) (suspended : task ∈ s.suspended) :
    s.running = true := by
  by_contra idle
  have nothing := (settled_of_reachable hs).idle (Bool.eq_false_iff.mpr idle)
  rw [Session.suspended, nothing.1, nothing.2.1] at suspended
  cases suspended

/-- A task stays suspended while others are launched. -/
theorem steady_suspended (task : Task) :
    Scheduler.Steady fun q => task ∈ q.startTask.toList ++ q.waiting where
  active _ h := h
  more t h := by
    rw [← List.append_assoc]
    exact List.mem_append_left _ h

/-- **The tasks of every session that a host can reach** wait each for a playback of its own. -/
theorem playbacks_of_reachable (hs : Reachable s) : s.Playbacks where
  history := (booked_of_reachable hs).history
  own task suspended h ht := by
    have claimed : (task.entity, h) ∈ claims s.suspended ++ [] :=
      List.mem_append_left _ (List.mem_filterMap.mpr ⟨task, suspended, by rw [Task.claim?, ht]; rfl⟩)
    exact (booked_of_reachable hs).begun _ claimed
  apart := by
    have once := (booked_of_reachable hs).once
    rw [List.append_nil, claims_map_snd] at once
    exact once
  between c v hc hv running task suspended := by
    have stays : s.Holds fun q => task ∈ q.startTask.toList ++ q.waiting := fun _ => suspended
    exact (holds_call (steady_suspended task) hc (running_of_suspended hs suspended) stays).of_eq hv
      running
  turns c dt v hc hv running task suspended h ht := by
    have runs := running_of_suspended hs suspended
    rw [Call.run_of_time? hc] at hv
    obtain ⟨inbox, b, r, x, begun, advanced, resumed, ended⟩ := Play.parts_of_updateBy runs hv
    have booked := booked_of_reachable hs
    rcases List.mem_append.mp suspended with paused | waits
    · exact ⟨b, turn_of_starting booked running ht begun advanced resumed ended runs
        (phased_of_reachable hs) (Option.mem_toList.mp paused)⟩
    · exact ⟨b, turn_of_waiting booked running ht begun advanced resumed ended waits⟩

/-- **Playbacks do not alias**: whatever is done to a player, a handle stands for one playback, which
    ends when a known end has come, and a task that waits for a playback waits as long as that is on,
    whatever becomes of others. -/
theorem playbacks_unaliased :
    (∀ capacity ops, (Player.new capacity).Unaliased ops) ∧
      (∀ (h : Nat) (now time : Float), now.isNaN = false → time.isNaN = false →
        ((Op.prune now).Ends h (some time) ↔ time ≤ now)) ∧
      ∀ s, Reachable s → s.Playbacks :=
  ⟨Player.unaliased_new, fun _ _ _ => Op.ends_prune_iff, fun _ hs => playbacks_of_reachable hs⟩

/-- Two play a sound of unknown length till its end once a key has been pressed. -/
def duet : Session :=
  (fresh .usual (Generator.ofSeed 0) 0).after
    [.register (Spawn.new "a"), .register (Spawn.new "b"),
      .addSounds [⟨"hum", "", "", none, none, none⟩],
      .addBehaviors "a" ⟨[⟨0, .key .any, [.action (.playSound (.const (.text "hum")) true)]⟩], [], 1⟩,
      .addBehaviors "b" ⟨[⟨0, .key .any, [.action (.playSound (.const (.text "hum")) true)]⟩], [], 1⟩,
      .script .start, .script (.keyDown "space")]

theorem reachable_duet : Reachable duet := (Reachable.fresh _ _ _).after _ (by decide +kernel)

/-- The end of one playback wakes the one who waits for it, and not the other. -/
theorem playbacks_duet :
    duet.suspended.filterMap Task.playback? = [1, 2] ∧ duet.Playbacks ∧
      (duet.after [.completeSound 2, .script (.updateBy 0)]).suspended.filterMap Task.playback?
        = [1] :=
  ⟨by decide +kernel, playbacks_unaliased.2.2 duet reachable_duet, by decide +kernel⟩

/-- Whoever has been stopped does not wait on, also while its playback is on. -/
theorem not_parked_while_playing :
    ¬∀ s v : Session, Reachable s → ∀ dt, Play.updateBy dt s = .ok () v → v.running = true →
      ∀ task ∈ s.suspended, ∀ h, task.playback? = some h → v.player.isPlaying h = true →
      task ∈ v.suspended := by
  intro parked
  have before : (duet.after [.entity "a" .stop]).suspended.filterMap Task.playback? = [1, 2] := by
    decide +kernel
  have after : (duet.after [.entity "a" .stop, .script (.updateBy 0)]).suspended.filterMap
      Task.playback? = [2] := by
    decide +kernel
  obtain ⟨task, suspended, waits⟩ := List.mem_filterMap.mp (before ▸ List.mem_cons_self : 1 ∈ _)
  have returns : (Play.updateBy 0).returns (duet.after [.entity "a" .stop]) = true := by
    decide +kernel
  obtain ⟨_, updated⟩ := Play.eq_of_returns returns
  have left := parked _ _ (reachable_duet.after [.entity "a" .stop] (by decide +kernel)) 0 updated
    (by decide +kernel) task suspended 1 waits (by decide +kernel)
  have found : 1 ∈ ([2] : List Nat) := after ▸ List.mem_filterMap.mpr ⟨task, left, waits⟩
  revert found
  decide

end Session

end BlockStage
