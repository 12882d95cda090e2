/-
  Staying: what becomes of the tasks that wait while others run.

  1. **Specification (`Session.Holds`)** — as long as the session runs, its tasks have some property.
     A property is steady (`Scheduler.Steady`) if neither noting what is under way nor letting one
     more task wait undoes it.

  2. **The crux (`holds_launchWith`)** — a script has nothing to do with the tasks, save that it may
     stop everything and that clones are launched for it.  So whatever is launched brings a steady
     property back, and so does every call that is no update (`holds_call`).

  3. **The start phase (`Scheduler.Phased`)** — the place of the paused start script is empty while
     start scripts run.  Whoever has a property of the tasks when the phase is taken up gets one back
     when it is left, and a start script is paused only during the phase (`phased_of_reachable`).
-/
import BlockStage.Proofs.Session.Pausing
import BlockStage.Proofs.Session.Provenance
import BlockStage.Proofs.Session.Unbroken

namespace BlockStage

/-- Noting that an instance is under way changes nothing else. -/
theorem Scheduler.activate_eq (q : Scheduler) (entity : String) (b : Nat) :
    ∃ active, q.activate entity b = { q with active := active } := by
  rw [activate]
  split
  · exact ⟨q.active, rfl⟩
  · exact ⟨_, rfl⟩

/-- A property of the tasks that launching does not undo. -/
structure Scheduler.Steady (J : Scheduler → Prop) : Prop where
  active : ∀ {q : Scheduler} (l : List (String × Nat)), J q → J { q with active := l }
  more : ∀ {q : Scheduler} (t : Task), J q → J { q with waiting := q.waiting ++ [t] }

/-- A property that the tasks have while start scripts run, and one that they have before and
    afterwards. -/
structure Scheduler.Phased (J K : Scheduler → Prop) : Prop extends Steady J where
  enter : ∀ {q : Scheduler}, K q → q.starting = true → J { q with startTask := none }
  queue : ∀ {q : Scheduler} (rest : List (String × Behavior)), J q → J { q with startQueue := rest }
  pause : ∀ {q : Scheduler} (t : Task), J q → K { q with startTask := some t }
  leave : ∀ {q : Scheduler}, J q → K { q with starting := false }

namespace Session

variable {J K : Scheduler → Prop} {s t : Session}

/-- What the tasks have as long as the session runs. -/
def Holds (J : Scheduler → Prop) (s : Session) : Prop := s.running = true → J s.scheduler

theorem Holds.carries (hs : s.Holds J) (h : s.Carries t) : t.Holds J := by
  intro running
  cases h with
  | on scheduler same =>
    rw [scheduler]
    exact hs (same.symm.trans running)
  | off _ idle =>
    rw [idle] at running
    cases running

theorem Holds.idle {q : Scheduler} (h : s.running ≠ true) :
    ({ s with scheduler := q } : Session).Holds J := fun running => absurd running h

/-- Scripts have nothing to do with the tasks. -/
theorem trying_holds (J : Scheduler → Prop) :
    Play.Trying fun {α} => Play.Restores (Holds J) (α := α) :=
  trying_restores fun h hs => hs.carries h.carries

theorem holds_schedule {f : Scheduler → Scheduler} (hf : ∀ q, J q → K (f q)) (hs : s.Holds J) :
    Play.After (Play.schedule f) s fun _ t => t.Holds K := fun running => hf _ (hs running)

/-! ## Launching -/

section
variable (hJ : Scheduler.Steady J)
include hJ

/-- Whatever is launched may wait in the end, behind the tasks that wait already. -/
theorem holds_launchWith {clone : String → Play Unit}
    (hc : ∀ source, Play.Restores (Holds J) (clone source)) (entity : String) (b : Behavior) :
    Play.Restores (Holds J) (Play.launchWith clone entity b) := by
  intro s hs
  refine Play.After.get_bind ?_
  split
  · exact hs
  · have noted (q : Scheduler) (hq : J q) : J (q.activate entity b.id) := by
      obtain ⟨active, eq⟩ := q.activate_eq entity b.id
      exact eq ▸ hJ.active active hq
    refine (holds_schedule noted hs).bind fun _ u hu => ?_
    refine ((trying_holds J).closed.runSlice hc _ u hu).bind fun left v hv => ?_
    cases left with
    | none => exact holds_schedule (K := J) (fun _ => hJ.active _) hv
    | some t => exact holds_schedule (K := J) (fun _ => hJ.more t) hv

theorem holds_createClone (source : String) :
    Play.Restores (Holds J) (Play.createClone source) := by
  have hP := (trying_holds J).closed
  have request : ∀ source, Play.Restores (Holds J)
      (Play.changing fun s => s.requestClone source) := fun source s hs => by
    obtain ⟨running, tasks, -⟩ := (s.requestClone_step source).fixed
    exact hs.carries (.on tasks running)
  have next : Play.Restores (Holds J) Play.nextCloneStart := by
    intro s hs
    rw [Play.After]
    cases queue : s.cloneStarts with
    | nil =>
      rw [Play.nextCloneStart_nil queue]
      exact hs
    | cons id rest =>
      rw [Play.nextCloneStart_cons queue]
      exact hs
  have launches := holds_launchWith hJ fun source => hP.queueClone (request source)
  exact hP.createClone (hP.launching launches) next (fun _ _ => trivial) (request source)
    (fun h s hs => h s s hs) fun _ _ hs => hs

theorem holds_makeClone (source : String) : Play.Restores (Holds J) (Play.makeClone source) :=
  (trying_holds J).closed.discarded (holds_createClone hJ source)

theorem holds_launching : Play.Launching (Play.Restores (Holds J)) Play.launch fun _ => True :=
  (trying_holds J).closed.launching (holds_launchWith hJ (holds_makeClone hJ))

/-- A call during which no time passes leaves the tasks of a running session alone. -/
theorem holds_call {c : Call} (hc : c.time? s = none) (running : s.running = true)
    (hs : s.Holds J) : Play.After c.run s fun _ t => t.Holds J := by
  by_cases plain : c.Plain
  · exact .of_last (hs.carries (carries_plain plain s))
  · have hP := (trying_holds J).closed.noting
    have hl := holds_launching hJ
    cases c with
    | script c =>
      cases c with
      | start =>
        refine Play.After.ask_bind ?_
        rw [if_pos running]
        exact hs
      | update | updateBy dt => cases hc
      | keyDown raw => exact hP.discarded (hP.keyDown hl raw) s hs
      | pointerDown p => exact hP.discarded (hP.pointerDown hl p) s hs
      | createClone source => exact hP.discarded (holds_createClone hJ source) s hs
    | broadcast message => exact hs.carries (Deed.aside (s.aside_broadcast message)).carries
    | _ => exact absurd trivial plain

/-! ## Resuming -/

theorem holds_resume (t : Task) : Play.Restores (Holds J) (Play.resume t) := by
  have hP := (trying_holds J).closed
  have retire : Play.Restores (Holds J) (Play.retire t) :=
    fun _ hs => holds_schedule (K := J) (fun _ => hJ.active _) hs
  refine hP.bind (hP.ask _ fun _ _ => rfl) fun may => ?_
  cases may with
  | false => exact hP.bind retire fun _ => hP.pure none
  | true =>
    refine hP.bind (hP.isReady t) fun ready => ?_
    cases ready with
    | false => exact hP.pure _
    | true =>
      refine hP.bind (hP.runSlice (holds_makeClone hJ) t) fun left => ?_
      cases left with
      | none => exact hP.bind retire fun _ => hP.pure none
      | some t => exact hP.pure _

theorem holds_resumeEach (l : List Task) : Play.Restores (Holds J) (Play.resumeEach l) := by
  have hP := (trying_holds J).closed
  induction l with
  | nil => exact hP.pure _
  | cons t rest ih => exact hP.bind (holds_resume hJ t) fun _ => hP.bind ih fun _ => hP.pure _

/-- What has nothing to do with those who wait is as before when all have had their turns. -/
theorem holds_resumeAll (any : ∀ {q : Scheduler} (l : List Task), J q → J { q with waiting := l }) :
    Play.Restores (Holds J) Play.resumeAll := by
  intro s hs
  refine Play.After.bind (Q := fun _ u => u.Holds J) (fun running => any _ (hs running))
    fun waiting u hu => ?_
  refine (holds_resumeEach hJ waiting u hu).bind fun still v hv => ?_
  refine Play.After.ask_bind ?_
  split
  · exact holds_schedule (K := J) (fun _ => any _) hv
  · exact hv

end

/-! ## The start phase -/

section
variable (hJ : Scheduler.Phased J K)
include hJ

theorem holds_runStarts (l : List (String × Behavior)) (hs : s.Holds J) :
    Play.After (Play.runStarts l) s fun _ t => t.Holds K := by
  induction l generalizing s with
  | nil =>
    refine Play.After.ask_bind ?_
    split
    · refine (holds_schedule (fun _ => hJ.leave) hs).bind fun _ u hu => ?_
      refine hu.carries ?_
      rw [Play.finishStart, Play.foldl_renewTemplate]
      exact .on rfl rfl
    · rename_i idle
      exact Holds.idle idle
  | cons e rest ih =>
    refine Play.After.ask_bind ?_
    split
    · refine (holds_schedule (fun _ => hJ.queue rest) hs).bind fun _ u hu => ?_
      refine ((trying_holds J).closed.runSlice (holds_makeClone hJ.toSteady) _ u hu).bind
        fun left v hv => ?_
      cases left with
      | none => exact ih hv
      | some t => exact holds_schedule (fun _ => hJ.pause t) hv
    · rename_i idle
      exact Holds.idle idle

theorem holds_continueStart (t : Task) (rest : List (String × Behavior)) (hs : s.Holds J) :
    Play.After (Play.continueStart t rest) s fun _ u => u.Holds K := by
  refine ((trying_holds J).closed.runSlice (holds_makeClone hJ.toSteady) t s hs).bind
    fun left u hu => ?_
  cases left with
  | none => exact holds_runStarts hJ rest hu
  | some t => exact holds_schedule (fun _ => hJ.pause t) hu

theorem holds_advanceStart : Play.Restores (Holds K) Play.advanceStart := by
  intro s hs
  refine Play.After.get_bind ?_
  cases starting : s.scheduler.starting with
  | false => exact hs
  | true =>
    cases running : s.running with
    | false => exact Holds.idle (Bool.eq_false_iff.mp running)
    | true =>
      have entered : J { s.scheduler with startTask := none } := hJ.enter (hs running) starting
      cases paused : s.scheduler.startTask with
      | none =>
        refine holds_runStarts hJ _ fun _ => ?_
        have same : { s.scheduler with startTask := none } = s.scheduler := by rw [← paused]
        exact same ▸ entered
      | some t =>
        refine Play.After.bind (Q := fun _ u => u.Holds J) (fun _ => entered) fun _ u hu => ?_
        have go : ∀ (waits : Bool) (v : Session), v.Holds J →
            Play.After (if waits then Play.schedule fun q => { q with startTask := some t }
              else Play.continueStart t s.scheduler.startQueue) v fun _ w => w.Holds K := by
          intro waits v hv
          cases waits with
          | true => exact holds_schedule (fun _ => hJ.pause t) hv
          | false => exact holds_continueStart hJ t _ hv
        cases s.mayRun t.entity with
        | false => exact go false u hu
        | true =>
          refine Play.After.bind (p := do return !(← Play.isReady t)) (Q := fun _ v => v.Holds J)
            ?_ go
          exact ((trying_holds J).closed.isReady t u hu).bind fun _ _ hv => hv

end

/-- Where one task waits, it waits also while start scripts run. -/
theorem phased_waiting (t : Task) :
    Scheduler.Phased (fun q => t ∈ q.waiting) fun q => t ∈ q.waiting where
  active _ h := h
  more _ h := List.mem_append_left _ h
  enter h _ := h
  queue _ h := h
  pause _ h := h
  leave h := h

/-! ## Paused start scripts -/

/-- A start script is paused during the start phase only. -/
def Phasing (q : Scheduler) : Prop := q.startTask.isSome = true → q.starting = true

theorem steady_phasing : Scheduler.Steady Phasing := ⟨fun _ h => h, fun _ h => h⟩

theorem phased_phasing :
    Scheduler.Phased (fun q => q.startTask = none ∧ q.starting = true) Phasing where
  active _ h := h
  more _ h := h
  enter _ starting := ⟨rfl, starting⟩
  queue _ h := h
  pause _ h _ := h.2
  leave h some := by
    rw [h.1] at some
    cases some

theorem holds_start : Play.Restores (Holds Phasing) Play.start := by
  intro s hs
  refine Play.After.ask_bind ?_
  split
  · exact hs
  · refine (Play.After.any _ s).bind fun _ t _ => Play.After.get_bind ?_
    refine (Play.After.any _ t).bind fun _ u _ => ?_
    refine Play.After.bind (Q := fun _ v => v.Holds Phasing) (fun _ none => (by cases none))
      fun _ v hv => ?_
    exact holds_advanceStart phased_phasing v hv

/-- **The run invariant**: only during the start phase is a start script paused. -/
theorem phased_of_reachable (h : Reachable s) : s.Holds Phasing := by
  have calls (c : Call) : Play.Restores (Holds Phasing) c.run := by
    intro s hs
    by_cases plain : c.Plain
    · exact .of_last (hs.carries (carries_plain plain s))
    · have hP := (trying_holds Phasing).closed.noting
      cases c with
      | script c =>
        exact hP.scriptCall (holds_launching steady_phasing) (holds_advanceStart phased_phasing)
          (holds_resumeAll steady_phasing fun _ h => h) (trying_holds Phasing).tick holds_start
          (holds_createClone steady_phasing) c s hs
      | broadcast message => exact hs.carries (Deed.aside (s.aside_broadcast message)).carries
      | _ => exact absurd trivial plain
  induction h with
  | fresh config g budget => exact fun running => (by cases running)
  | call c _ hc ih => exact (calls c _ ih).of_eq hc

end Session

end BlockStage
