/-
  Hollow sessions: what the tasks of an entity that has left hold makes no difference.

  1. **Hollow sessions (`Session.hollow`)** — a session in which the tasks of one entity, and its
     queued start scripts, have been emptied, and which is otherwise the same.

  2. **Echoes (`Play.Echoes`)** — a step does in the hollow session what it does in the full one, as
     long as the id is vacant.  A second step is let stand for the first, since the scheduler's moves
     hand on what they have taken out, and that has been emptied as well.

  3. **The crux** — scripts have nothing to do with tasks (`closed_echoes`).  So only the scheduler's
     own moves are left, and each of these finds that the entity may not run before it looks at what
     a task of it holds (`echoes_resume`, `echoes_runStarts`); whoever begins to wait meanwhile is
     someone else (`others_of_paused`).
-/
import BlockStage.Proofs.Session.Pausing
import BlockStage.Proofs.Session.Vacancy

namespace BlockStage

/-! ## Hollow sessions -/

/-- The task of an entity with nothing left to do; the tasks of others stay as they are. -/
def Task.hollow (id : String) (t : Task) : Task :=
  if t.entity = id then { t with frames := [], waiting := none } else t

namespace Task

theorem hollow_of_ne {id : String} {t : Task} (h : t.entity ≠ id) : t.hollow id = t := if_neg h

@[simp] theorem hollow_entity (id : String) (t : Task) : (t.hollow id).entity = t.entity := by
  rw [hollow]
  split <;> rfl

@[simp] theorem hollow_behavior (id : String) (t : Task) :
    (t.hollow id).behavior = t.behavior := by
  rw [hollow]
  split <;> rfl

/-- Tasks of others stay as they are. -/
theorem map_hollow_of_ne {id : String} {l : List Task} (h : ∀ t ∈ l, t.entity ≠ id) :
    l.map (hollow id) = l := by
  rw [List.map_congr_left fun t ht => hollow_of_ne (h t ht), List.map_id']

end Task

/-- A queued start script of an entity with nothing in it. -/
def hollowStart (id : String) (e : String × Behavior) : String × Behavior :=
  if e.1 = id then (e.1, { e.2 with body := [] }) else e

theorem hollowStart_of_ne {id : String} {e : String × Behavior} (h : e.1 ≠ id) :
    hollowStart id e = e := if_neg h

theorem map_hollowStart_of_ne {id : String} {l : List (String × Behavior)}
    (h : ∀ e ∈ l, e.1 ≠ id) : l.map (hollowStart id) = l := by
  rw [List.map_congr_left fun e he => hollowStart_of_ne (h e he), List.map_id']

/-- The tasks and the queued start scripts of an entity, emptied.  Who waits, who is noted as under
    way and in which order stays the same. -/
def Scheduler.hollow (id : String) (q : Scheduler) : Scheduler :=
  { q with
    waiting := q.waiting.map (Task.hollow id)
    startQueue := q.startQueue.map (hollowStart id)
    startTask := q.startTask.map (Task.hollow id) }

theorem Scheduler.activate_hollow (id entity : String) (b : Nat) (q : Scheduler) :
    (q.hollow id).activate entity b = (q.activate entity b).hollow id := by
  have same : (q.hollow id).isActive entity b = q.isActive entity b := rfl
  rw [activate, activate, same]
  split <;> rfl

namespace Session

/-- The tasks of an entity are emptied, and the clone budget stays the same. -/
def hollowing (id : String) : Disguise := ⟨Scheduler.hollow id, fun n => n, rfl⟩

/-- The session with the tasks of an entity emptied. -/
def hollow (s : Session) (id : String) : Session := s.under (hollowing id)

theorem hollow_of_idle {s : Session} (id : String) (h : s.scheduler = .idle) : s.hollow id = s := by
  have same : s.scheduler.hollow id = s.scheduler := by
    rw [h]
    rfl
  exact congrArg (fun q => { s with scheduler := q }) same

variable {id : String} {s : Session}

/-- An emptied task makes no difference to who is on stage. -/
theorem Vacant.hollow (hs : s.Vacant id) : (s.hollow id).Vacant id :=
  ⟨⟨hs.registry.stage, hs.registry.catalogs, hs.registry.locals⟩, hs.absent, hs.unnamed⟩

end Session

/-! ## Echoes -/

namespace Play

variable {id : String} {α β : Type} {p q : Play α} {f g : α → Play β} {s : Session}

/-- An outcome in the hollow session. -/
def hollowed (id : String) : EStateM.Result Fault Session α → EStateM.Result Fault Session α
  | .ok a t => .ok a (t.hollow id)
  | .error e t => .error e (t.hollow id)

/-- As long as an id is vacant, a second step does in the hollow session what a first one does in the
    full one, and the id stays vacant. -/
def Echoes (id : String) (p q : Play α) : Prop :=
  ∀ s : Session, s.Vacant id → q (s.hollow id) = hollowed id (p s) ∧ (p.last s).Vacant id

namespace Echoes

/-- Steps that answer alike; what is known of their answers can be used for what follows. -/
theorem bind_of {Q : α → Prop} (hp : Echoes id p q)
    (answers : ∀ s : Session, s.Vacant id → After p s fun a _ => Q a)
    (hf : ∀ a, Q a → Echoes id (f a) (g a)) : Echoes id (p >>= f) (q >>= g) := by
  intro s hs
  obtain ⟨same, vacant⟩ := hp s hs
  have answer := answers s hs
  rw [last] at vacant ⊢
  cases hr : p s with
  | ok a t =>
    rw [hr] at same vacant
    rw [bind_of_ok hr, bind_of_ok same]
    exact hf a (answer.of_eq hr) t vacant
  | error e t =>
    rw [hr] at same vacant
    rw [bind_of_error hr, bind_of_error same]
    exact ⟨rfl, vacant⟩

theorem bind (hp : Echoes id p q) (hf : ∀ a, Echoes id (f a) (g a)) :
    Echoes id (p >>= f) (q >>= g) :=
  hp.bind_of (Q := fun _ => True) (fun s _ => After.any p s) fun a _ => hf a

/-- Looking at the session, in which the tasks look different. -/
theorem look {f g : Session → Play α}
    (h : ∀ s : Session, s.Vacant id → Echoes id (f s) (g (s.hollow id))) :
    Echoes id (get >>= f) (get >>= g) := fun s hs => h s hs s hs

theorem ite (c : Prop) [Decidable c] {p' q' : Play α} (hp : Echoes id p q) (hq : Echoes id p' q') :
    Echoes id (if c then p else p') (if c then q else q') := by
  split
  · exact hp
  · exact hq

end Echoes

theorem echoes_changing {f : Session → α × Session} (hd : Session.Apart f)
    (hf : ∀ s : Session, s.Vacant id → (f s).2.Vacant id) : Echoes id (changing f) (changing f) := by
  refine fun s hs => ⟨?_, hf s hs⟩
  show changing f (s.under _) = _
  rw [changing_apply, hd s]
  rfl

theorem echoes_change {f : Session → Session}
    (hf : ∀ s : Session, s.Vacant id → (f s).Vacant id)
    (hd : ∀ s d, f (s.under d) = (f s).under d) : Echoes id (change f) (change f) :=
  echoes_changing (f := fun s => ((), f s)) (fun s d => Prod.ext rfl (hd s d)) hf

/-- **Whatever scripts do besides making clones echoes.** -/
theorem trying_echoes (id : String) : Trying fun {α} (p : Play α) => Echoes id p p where
  bind hp hf := hp.bind hf
  attempt {α f} hf _ s hs := by
    have kept := hf.deeds s |>.keep (fun _ _ => Session.Vacant.deed) hs
    refine ⟨?_, ?_⟩
    · show attempt f (s.under _) = _
      rw [attempt, attempt, hf.apart s]
      rcases f s with ⟨_ | _, t⟩ <;> rfl
    · rw [last, attempt]
      rcases hr : f s with ⟨_ | _, t⟩ <;> rw [hr] at kept <;> exact kept

theorem closed_echoes (id : String) : Closed fun {α} (p : Play α) => Echoes id p p :=
  (trying_echoes id).closed

/-- A move of the scheduler echoes if it does to emptied tasks what it does to full ones. -/
theorem echoes_schedule {f g : Scheduler → Scheduler} (h : ∀ q, g (q.hollow id) = (f q).hollow id) :
    Echoes id (schedule f) (schedule g) := by
  refine fun s hs => ⟨?_, (Session.stable_vacant id).upkeep (s.upkeep_schedule _) hs⟩
  show EStateM.Result.ok () { s with scheduler := g (s.scheduler.hollow id) } = _
  rw [h]
  rfl

theorem Echoes.after (hp : Echoes id p q) (hs : s.Vacant id) : After p s fun _ t => t.Vacant id := by
  have vacant := (hp s hs).2
  rw [After]
  rw [last] at vacant
  split
  · rename_i h
    rw [h] at vacant
    exact vacant
  · trivial

/-! ## Slices -/

section
variable {clone : String → Play Unit} (hc : ∀ source, Echoes id (clone source) (clone source))
include hc

/-- What a task of the entity holds makes no difference to its slice. -/
theorem echoes_runSlice {t u : Task} (same : u.entity = t.entity)
    (others : t.entity ≠ id → u = t) : Echoes id (runSlice clone t) (runSlice clone u) := by
  by_cases h : t.entity = id
  · refine fun s hs => ⟨?_, ?_⟩
    · rw [hs.runSlice h, hs.hollow.runSlice (same.trans h)]
      rfl
    · rw [last, hs.runSlice h]
      exact hs
  · rw [others h]
    exact (closed_echoes id).runSlice hc t

omit hc in
/-- A task that has paused is not one of the entity. -/
theorem others_of_paused (clone : String → Play Unit) (t : Task) (hs : s.Vacant id) :
    After (runSlice clone t) s fun left _ => ∀ u ∈ left, u.entity ≠ id := by
  by_cases h : t.entity = id
  · rw [After, hs.runSlice h]
    exact fun _ h => (by cases h)
  · refine (Session.running_of_paused clone t s).mono fun left _ paused u hu => ?_
    have key : u.entity = t.entity := congrArg Prod.fst (paused u hu).1
    rwa [key]

omit hc in
/-- Noting that a task is over has nothing to do with what it held. -/
theorem echoes_retired (entity : String) (b : Nat) :
    Echoes id (schedule fun q => q.deactivate entity b) (schedule fun q => q.deactivate entity b) :=
  echoes_schedule fun _ => rfl

theorem echoes_launchWith (entity : String) (b : Behavior) :
    Echoes id (launchWith clone entity b) (launchWith clone entity b) := by
  refine Echoes.look fun s _ => Echoes.ite _ ((closed_echoes id).pure false) ?_
  refine (echoes_schedule fun q => q.activate_hollow id entity b.id).bind fun _ => ?_
  refine (echoes_runSlice hc rfl fun _ => rfl).bind_of (fun s => others_of_paused clone _)
    fun left others => ?_
  cases left with
  | none => exact (echoes_retired entity b.id).bind fun _ => (closed_echoes id).pure true
  | some t =>
    refine (echoes_schedule fun q => ?_).bind fun _ => (closed_echoes id).pure true
    -- whoever begins to wait is not one of the entity, so nothing of it is emptied
    have same : (q.waiting ++ [t]).map (Task.hollow id) = q.waiting.map (Task.hollow id) ++ [t] := by
      rw [List.map_append, List.map_singleton, Task.hollow_of_ne (others t rfl)]
    exact congrArg (fun l => { q.hollow id with waiting := l }) same.symm

end

/-! ## Clones -/

theorem echoes_requestClone (source : String) :
    Echoes id (changing fun s => s.requestClone source) (changing fun s => s.requestClone source) :=
  echoes_changing (Session.apart_requestClone source)
    fun s hs => (Session.stable_vacant id).request s source hs

theorem echoes_nextCloneStart : Echoes id nextCloneStart nextCloneStart := by
  refine echoes_changing (fun s d => ?_) fun s hs => ?_
  · have same : (s.under d).cloneStarts = s.cloneStarts := rfl
    rw [same]
    split <;> rfl
  · split
    · exact hs
    · exact (Session.stable_vacant id).queue s _ s.draining hs

theorem echoes_startClones (budget : Nat) :
    Echoes id (startClones budget) (startClones budget) := by
  have hP := closed_echoes id
  induction budget with
  | zero => exact fun s hs => ⟨rfl, hs⟩
  | succ budget ih =>
    refine echoes_nextCloneStart.bind fun next => ?_
    cases next with
    | none => exact hP.pure ()
    | some j =>
      refine Echoes.bind (hP.ask _ fun _ _ => rfl) fun starts => Echoes.bind ?_ fun _ => ih
      exact hP.forM _ fun b _ => hP.discarded
        (echoes_launchWith (fun source => hP.discarded (echoes_requestClone source)) j b)

theorem echoes_createClone (source : String) :
    Echoes id (createClone source) (createClone source) := by
  have hP := closed_echoes id
  have drained : ∀ draining, Echoes id (change fun s => { s with draining := draining })
      (change fun s => { s with draining := draining }) := fun draining =>
    echoes_change (fun s hs => (Session.stable_vacant id).queue s s.cloneStarts draining hs)
      fun _ _ => rfl
  refine (echoes_requestClone source).bind fun r => ?_
  cases r with
  | error e => exact hP.pure _
  | ok j =>
    refine Echoes.bind ?_ fun _ => hP.pure _
    refine Echoes.look fun s _ => Echoes.ite _ ?_ (hP.pure ())
    exact (drained true).bind fun _ => (echoes_startClones _).bind fun _ => drained false

theorem echoes_makeClone (source : String) : Echoes id (makeClone source) (makeClone source) :=
  (closed_echoes id).discarded (echoes_createClone source)

/-! ## Paused tasks -/

theorem retire_hollow (id : String) (t : Task) : retire (t.hollow id) = retire t := by
  rw [retire, retire, Task.hollow_entity, Task.hollow_behavior]

/-- **A paused task of the entity is dropped whatever it holds.** -/
theorem echoes_resume (t : Task) : Echoes id (resume t) (resume (t.hollow id)) := by
  have hP := closed_echoes id
  have asked : Echoes id (ask fun s => s.mayRun t.entity)
      (ask fun s => s.mayRun (t.hollow id).entity) := by
    rw [Task.hollow_entity]
    exact hP.ask _ fun _ _ => rfl
  have others : ∀ s : Session, s.Vacant id →
      After (ask fun s => s.mayRun t.entity) s fun may _ => may = true → t.entity ≠ id := by
    rintro s hs may rfl
    cases hs.mayRun.symm.trans may
  refine asked.bind_of others fun may other => ?_
  cases may with
  | false =>
    rw [retire_hollow]
    exact (echoes_retired t.entity t.behavior).bind fun _ => hP.pure none
  | true =>
    rw [Task.hollow_of_ne (other rfl)]
    refine Echoes.bind (hP.isReady t) fun ready => ?_
    cases ready with
    | false => exact hP.pure _
    | true =>
      refine (echoes_runSlice echoes_makeClone rfl fun _ => rfl).bind fun left => ?_
      cases left with
      | some u => exact hP.pure _
      | none => exact (echoes_retired t.entity t.behavior).bind fun _ => hP.pure none

/-- What is left of a task is a task of the same entity. -/
theorem entity_of_resume (t : Task) (s : Session) :
    After (resume t) s fun left _ => ∀ u ∈ left, u.entity = t.entity := by
  refine After.ask_bind ?_
  cases s.mayRun t.entity with
  | false => exact fun _ h => (by cases h)
  | true =>
    refine (After.any (isReady t) s).bind fun ready v _ => ?_
    cases ready with
    | false =>
      rintro _ ⟨⟩
      rfl
    | true =>
      refine (Session.running_of_paused makeClone t v).bind fun left w paused => ?_
      cases left with
      | none => exact fun _ h => (by cases h)
      | some u =>
        rintro _ ⟨⟩
        exact congrArg Prod.fst (paused u rfl).1

theorem others_of_resume (t : Task) (hs : s.Vacant id) :
    After (resume t) s fun left _ => ∀ u ∈ left, u.entity ≠ id := by
  by_cases h : t.entity = id
  · rw [After, hs.still.paused t h]
    exact fun _ h => (by cases h)
  · exact (entity_of_resume t s).mono fun left _ same u hu => (same u hu).symm ▸ h

theorem echoes_resumeEach (l : List Task) :
    Echoes id (resumeEach l) (resumeEach (l.map (Task.hollow id))) := by
  have hP := closed_echoes id
  induction l with
  | nil => exact hP.pure []
  | cons t rest ih =>
    exact (echoes_resume t).bind fun _ => ih.bind fun _ => hP.pure _

/-- None of the entity's tasks still waits after a round. -/
theorem others_of_resumeEach (l : List Task) (hs : s.Vacant id) :
    After (resumeEach l) s fun left _ => ∀ u ∈ left, u.entity ≠ id := by
  induction l generalizing s with
  | nil => exact fun _ h => (by cases h)
  | cons t rest ih =>
    refine ((others_of_resume t hs).and ((echoes_resume t).after hs)).bind fun first u hu => ?_
    refine (ih hu.2).bind fun others v hv w hw => ?_
    rcases List.mem_append.mp hw with old | new
    · exact hu.1 w (Option.mem_toList.mp old)
    · exact hv w new

theorem echoes_resumeAll : Echoes id resumeAll resumeAll := by
  have hP := closed_echoes id
  have rest : ∀ l : List Task, Echoes id
      (do
        let still ← resumeEach l
        if ← ask Session.running then schedule fun q => { q with waiting := still ++ q.waiting })
      (do
        let still ← resumeEach (l.map (Task.hollow id))
        if ← ask Session.running then
          schedule fun q => { q with waiting := still ++ q.waiting }) := by
    intro l
    refine (echoes_resumeEach l).bind_of (fun s => others_of_resumeEach l) fun still others => ?_
    refine Echoes.bind (hP.ask _ fun _ _ => rfl) fun running => Echoes.ite _ ?_ (hP.pure ())
    refine echoes_schedule fun q => ?_
    have same : (still ++ q.waiting).map (Task.hollow id)
        = still ++ q.waiting.map (Task.hollow id) := by
      rw [List.map_append, Task.map_hollow_of_ne others]
    exact congrArg (fun l => { q.hollow id with waiting := l }) same.symm
  intro s hs
  have taken : ({ s with scheduler := { s.scheduler with waiting := [] } } : Session).Vacant id :=
    (Session.stable_vacant id).upkeep (s.upkeep_schedule _) hs
  exact rest s.scheduler.waiting _ taken

/-! ## The start phase -/

/-- A queued start script keeps its entity, and those of others stay as they are. -/
theorem hollowStart_eq (id entity : String) (b : Behavior) :
    ∃ c, hollowStart id (entity, b) = (entity, c) ∧ (entity ≠ id → c = b) := by
  by_cases h : entity = id
  · exact ⟨{ b with body := [] }, if_pos h, fun other => absurd h other⟩
  · exact ⟨b, if_neg h, fun _ => rfl⟩

/-- A script of the start phase that has paused is not one of the entity. -/
theorem echoes_startTask {t : Task} (other : t.entity ≠ id) :
    Echoes id (schedule fun q => { q with startTask := some t })
      (schedule fun q => { q with startTask := some t }) := by
  refine echoes_schedule fun q => ?_
  have same : (some t).map (Task.hollow id) = some t := by
    rw [Option.map_some, Task.hollow_of_ne other]
  exact congrArg (fun u => { q.hollow id with startTask := u }) same.symm

/-- **A queued start script of the entity is passed over whatever it holds.** -/
theorem echoes_runStarts (l : List (String × Behavior)) :
    Echoes id (runStarts l) (runStarts (l.map (hollowStart id))) := by
  have hP := closed_echoes id
  have idle : Echoes id (schedule fun _ => .idle) (schedule fun _ => .idle) :=
    echoes_schedule fun _ => rfl
  have running : Echoes id (ask Session.running) (ask Session.running) := hP.ask _ fun _ _ => rfl
  induction l with
  | nil =>
    refine running.bind fun _ => Echoes.ite _ ?_ idle
    refine Echoes.bind (echoes_schedule fun _ => rfl) fun _ => echoes_change (fun s hs => ?_) ?_
    · exact (Session.stable_vacant id).upkeep s.upkeep_finishStart hs
    · exact fun s d => congrArg Prod.snd (apart_finishStart s d)
  | cons e rest ih =>
    obtain ⟨entity, b⟩ := e
    obtain ⟨c, emptied, others⟩ := hollowStart_eq id entity b
    rw [List.map_cons, emptied]
    refine running.bind fun _ => Echoes.ite _ ?_ idle
    refine Echoes.bind (echoes_schedule fun _ => rfl) fun _ => ?_
    refine (echoes_runSlice echoes_makeClone (t := Task.new entity b) (u := Task.new entity c) rfl
      fun other => by rw [others other]).bind_of (fun s => others_of_paused makeClone _)
      fun left others => ?_
    cases left with
    | some t => exact echoes_startTask (others t rfl)
    | none => exact ih

theorem echoes_continueStart (t : Task) (rest : List (String × Behavior)) :
    Echoes id (continueStart t rest)
      (continueStart (t.hollow id) (rest.map (hollowStart id))) := by
  refine (echoes_runSlice echoes_makeClone (t.hollow_entity id) Task.hollow_of_ne).bind_of
    (fun s => others_of_paused makeClone _) fun left others => ?_
  cases left with
  | some t => exact echoes_startTask (others t rfl)
  | none => exact echoes_runStarts rest

theorem echoes_advanceStart : Echoes id advanceStart advanceStart := by
  have hP := closed_echoes id
  have idle : Echoes id (schedule fun _ => .idle) (schedule fun _ => .idle) :=
    echoes_schedule fun _ => rfl
  refine Echoes.look fun s hs => Echoes.ite _ (hP.pure ()) (Echoes.ite _ idle ?_)
  have start : (s.hollow id).scheduler.startTask = s.scheduler.startTask.map (Task.hollow id) := rfl
  rw [start]
  cases s.scheduler.startTask with
  | none => exact echoes_runStarts _
  | some t =>
    have may : (s.hollow id).mayRun (t.hollow id).entity = s.mayRun t.entity := by
      rw [Task.hollow_entity]
      rfl
    refine Echoes.bind (echoes_schedule fun _ => rfl) fun _ => ?_
    dsimp only [Option.map_some]
    rw [may]
    -- the entity may not run, so what its start script waits for is not even looked at
    have go : ∀ waits : Bool, (waits = true → t.entity ≠ id) →
        Echoes id (if waits then schedule fun q => { q with startTask := some t }
            else continueStart t s.scheduler.startQueue)
          (if waits then schedule fun q => { q with startTask := some (t.hollow id) }
            else continueStart (t.hollow id) (s.scheduler.startQueue.map (hollowStart id))) := by
      intro waits other
      cases waits with
      | true =>
        rw [Task.hollow_of_ne (other rfl)]
        exact echoes_startTask (other rfl)
      | false => exact echoes_continueStart t _
    cases hr : s.mayRun t.entity with
    | false =>
      show Echoes id (pure false >>= _) (pure false >>= _)
      refine (hP.pure false).bind_of (Q := fun waits => waits = false) (fun _ _ => rfl) ?_
      rintro _ rfl
      exact go false fun h => (by cases h)
    | true =>
      have other : t.entity ≠ id := by
        rintro rfl
        cases hs.mayRun.symm.trans hr
      have looked : Echoes id (do return !(← isReady t)) (do return !(← isReady (t.hollow id))) := by
        rw [Task.hollow_of_ne other]
        exact hP.bind (hP.isReady t) fun _ => hP.pure _
      exact looked.bind fun waits => go waits fun _ => other

theorem echoes_start : Echoes id start start := by
  have hP := closed_echoes id
  refine Echoes.bind (hP.ask _ fun _ _ => rfl) fun running =>
    Echoes.ite _ (hP.change (Session.skill_note _ _).tidy) ?_
  refine Echoes.bind (echoes_change (fun s hs => ?_) fun _ _ => rfl) fun _ => ?_
  · exact (Session.stable_vacant id).upkeep
      ⟨rfl, s.stage.sameCast_setAllStopped false, fun _ h => h, rfl⟩ hs
  refine Echoes.look fun s hs => ?_
  refine Echoes.bind (hP.change (Session.skill_note _ _).tidy) fun _ => ?_
  refine Echoes.bind (echoes_schedule fun q => ?_) fun _ => echoes_advanceStart
  -- start scripts are queued for those on stage, and the entity is not among them
  let queue : List (String × Behavior) := s.stage.ids.flatMap fun j =>
    (s.behaviors j fun t => t == .start).map fun b => (j, b)
  have same : queue.map (hollowStart id) = queue := by
    refine map_hollowStart_of_ne fun e he => ?_
    obtain ⟨j, there, made⟩ := List.mem_flatMap.mp he
    obtain ⟨b, -, rfl⟩ := List.mem_map.mp made
    exact fun h => hs.notMem (h ▸ there)
  exact congrArg (q.hollow id).beginStart same.symm

/-! ## Calls -/

/-- **Every call echoes** that brings nobody on stage under the id and does not clear the stage. -/
theorem echoes_call (c : Call) (hc : c.Within (.sparing id)) : Echoes id c.run c.run := by
  refine (Session.stable_vacant id).toLasting.call (closed_echoes id) echoes_change (fun c => ?_) c hc
  exact (closed_echoes id).noting.scriptCall
    ((closed_echoes id).launching (echoes_launchWith echoes_makeClone)) echoes_advanceStart
    echoes_resumeAll (trying_echoes id).tick echoes_start echoes_createClone c

end Play

namespace Session

variable {id : String} {s : Session}

theorem Vacant.last_hollow (hs : s.Vacant id) {c : Call} (hc : c.Within (.sparing id)) :
    c.run.last (s.hollow id) = (c.run.last s).hollow id := by
  rw [Play.last, Play.last, (Play.echoes_call c hc s hs).1]
  cases c.run s <;> rfl

theorem Vacant.after_hollow (hs : s.Vacant id) (calls : List Call)
    (hc : ∀ c ∈ calls, c.Within (.sparing id)) :
    (s.hollow id).after calls = (s.after calls).hollow id := by
  induction calls generalizing s with
  | nil => rfl
  | cons c rest ih =>
    have first := hc c List.mem_cons_self
    show (c.run.last (s.hollow id)).after rest = ((c.run.last s).after rest).hollow id
    rw [hs.last_hollow first]
    exact ih (Play.echoes_call c first s hs).2 fun d hd => hc d (List.mem_cons_of_mem c hd)

end Session

end BlockStage
