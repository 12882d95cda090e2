/-
  Provenance: where the behaviors in catalogs come from.

  1. **Specification (`Call.Offers`)** — a host adds behaviors only from programs of some kind.  Then
     whatever is found in a catalog has been placed there by such a program: it is one of its hats,
     or a loop of a script of it (`CompiledProgram.Places`).

  2. **The invariant (`Session.Sourced`)** — catalogs are copied into templates and from there to
     clones, and a loop is added by a script that may have been paused since long before.  So
     besides catalogs also templates, queued start scripts and paused tasks hold nothing but
     behaviors of the kind, and what these can add is of the kind again.

  3. **The crux (`Weaving.answers_run`)** — a step of the machine adds no loop but one of the frames
     that it is run on, and leaves frames with no others.  So what is asked of a task goes along
     with what each step answers (`Play.Answers`).

  4. **What fails (`required_of_catalogs`)** — the mask of a program is no account of what is
     found in catalogs: it leaves out the loops, unless some hat runs in every frame.
-/
import BlockStage.Proofs.Script.Loops
import BlockStage.Proofs.Session.Catalogs

namespace BlockStage

/-! ## Answers -/

namespace Play

/-- A step that keeps a property of sessions, whether or not it breaks off, and if it returns answers
    something of some kind. -/
structure Answers (I : Session → Prop) {α : Type} (Q : α → Prop) (p : Play α) : Prop where
  keeps : Keeps I p
  answer : ∀ s, I s → After p s fun a _ => Q a

namespace Answers

variable {I : Session → Prop} {α β : Type} {Q : α → Prop} {R : β → Prop} {p q : Play α}
  {f : α → Play β}

/-- What is answered does not matter. -/
theorem of_keeps (h : Keeps I p) : Answers I (fun _ => True) p := ⟨h, fun s _ => After.any p s⟩

theorem bind (hp : Answers I Q p) (hf : ∀ a, Q a → Answers I R (f a)) : Answers I R (p >>= f) where
  keeps s hs := by
    have kept := hp.keeps s hs
    cases hr : p s with
    | ok a t =>
      rw [last_of_ok hr] at kept
      rw [last_bind_of_ok hr]
      exact (hf a ((hp.answer s hs).of_eq hr)).keeps t kept
    | error e t =>
      rw [last, hr] at kept
      rw [last, bind_of_error hr]
      exact kept
  answer s hs := by
    have kept := hp.keeps s hs
    rw [After]
    cases hr : p s with
    | ok a t =>
      rw [last_of_ok hr] at kept
      rw [bind_of_ok hr]
      exact (hf a ((hp.answer s hs).of_eq hr)).answer t kept
    | error e t =>
      rw [bind_of_error hr]
      trivial

/-- What is answered by the first of two steps does not matter. -/
theorem after (hp : Keeps I p) (hf : ∀ a, Answers I R (f a)) : Answers I R (p >>= f) :=
  (of_keeps hp).bind fun a _ => hf a

theorem pure {a : α} (h : Q a) : Answers I Q (pure a) := ⟨fun _ hs => hs, fun _ _ => h⟩

theorem changing {g : Session → α × Session} (h : ∀ s, I s → I (g s).2 ∧ Q (g s).1) :
    Answers I Q (changing g) := ⟨fun s hs => (h s hs).1, fun s hs => (h s hs).2⟩

theorem look {g : Session → Play α} (h : ∀ s, I s → Answers I Q (g s)) :
    Answers I Q (get >>= g) := ⟨fun s hs => (h s hs).keeps s hs, fun s hs => (h s hs).answer s hs⟩

theorem ite (c : Prop) [Decidable c] (hp : Answers I Q p) (hq : Answers I Q q) :
    Answers I Q (if c then p else q) := by
  split
  · exact hp
  · exact hq

end Answers

end Play

/-! ## The machine -/

/-- What is left of a script can add only behaviors of some kind. -/
def Slice.AddsOnly (kind : Behavior → Prop) : Slice → Prop
  | .finished => True
  | .paused frames _ => Frame.AddsOnly kind frames

namespace Play

/-- **A slice adds only loops of its frames**, and leaves frames with no others. -/
theorem Weaving.answers_run {I : Session → Prop} (hP : Weaving (Keeps I)) {kind : Behavior → Prop}
    {h : Host Play} (alive : Keeps I h.alive) (eval : ∀ e, Keeps I (h.eval e))
    (perform : ∀ a, Keeps I (h.perform a)) (count : ∀ name i, Keeps I (h.count name i))
    (addLoop : ∀ loop body, kind ⟨loop, .forever, body⟩ → Keeps I (h.addLoop loop body))
    (report : ∀ message, Keeps I (h.report message)) (frames : List Frame)
    (hf : Frame.AddsOnly kind frames) : Answers I (Slice.AddsOnly kind) (h.run frames) := by
  -- the recursion is the machine's own: every call is on a lighter stack
  have rest : ∀ left, Frame.weights left < Frame.weights frames → Frame.AddsOnly kind left →
      Answers I (Slice.AddsOnly kind) (h.run left) :=
    fun left _ => answers_run hP alive eval perform count addLoop report left
  cases frames with
  | nil =>
    rw [Host.run.eq_def]
    refine .after alive fun alive => ?_
    cases alive <;> exact .pure trivial
  | cons f fs =>
    obtain ⟨first, others⟩ := Frame.addsOnly_cons.mp hf
    cases ht : f.take? with
    | some taken =>
      obtain ⟨s, g⟩ := taken
      obtain ⟨ofS, ofG⟩ := Frame.loops_of_take? ht
      rw [Host.run_take ht]
      refine .after alive fun alive => ?_
      cases alive with
      | false => exact .pure trivial
      | true =>
        have resolved : Keeps I (h.resolve s) :=
          hP.resolve eval perform count report s fun loop body same => by
            subst same
            exact addLoop loop body (first _ (ofS List.mem_cons_self))
        have taken : Frame.AddsOnly kind (g :: fs) :=
          Frame.addsOnly_cons.mpr ⟨fun b hb => first b (ofG hb), others⟩
        refine .after resolved fun o => ?_
        have entered : Frame.AddsOnly kind (s.enter o ++ g :: fs) :=
          List.forall_mem_append.mpr
            ⟨fun e he b hb => first b (ofS (Frame.loops_of_enter s o e he hb)), taken⟩
        have next := rest (s.enter o ++ g :: fs) (Frame.weights_enter_lt ht o fs) entered
        cases o with
        | pause p => exact .pure taken
        | finish => exact .pure trivial
        | _ => exact next
    | none =>
      rw [Host.run_over ht]
      refine .after alive fun alive => ?_
      cases alive with
      | false => exact .pure trivial
      | true =>
        cases f with
        | sequence l => exact rest fs (Frame.weights_lt_cons _ fs) others
        | loop turns body l =>
          refine .pure (Frame.addsOnly_cons.mpr ⟨fun b hb => first b ?_, others⟩)
          exact List.mem_append_left _ hb
        | turned turns body =>
          refine .after (hP.again eval count turns) fun turn => ?_
          cases turn with
          | none => exact rest fs (Frame.weights_lt_cons _ fs) others
          | some next =>
            refine rest (.loop next body body :: fs) (Frame.weights_turn_lt turns next body fs)
              (Frame.addsOnly_cons.mpr ⟨fun b hb => first b ?_, others⟩)
            exact or_self_iff.mp (List.mem_append.mp hb)
termination_by Frame.weights frames

end Play

/-! ## Sourced sessions -/

/-- Whatever a task can still add is of some kind. -/
def Task.AddsOnly (kind : Behavior → Prop) (t : Task) : Prop := Frame.AddsOnly kind t.frames

/-- Whatever is left of a task, if anything is left, can still add only what is of some kind. -/
def Task.LeftOnly (kind : Behavior → Prop) (left : Option Task) : Prop :=
  ∀ t, left = some t → t.AddsOnly kind

/-- Queued start scripts are of some kind, and so is whatever waiting tasks can still add. -/
structure Scheduler.Sourced (kind : Behavior → Prop) (q : Scheduler) : Prop where
  waiting : ∀ t ∈ q.waiting, t.AddsOnly kind
  queue : ∀ e ∈ q.startQueue, kind e.2
  paused : ∀ t, q.startTask = some t → t.AddsOnly kind

/-- A behavior of the kind can add only such, if whatever its kind can add is of the kind. -/
theorem Task.addsOnly_new {kind : Behavior → Prop} (closed : ∀ b, kind b → ∀ l ∈ b.loops, kind l)
    (entity : String) {b : Behavior} (hb : kind b) : (Task.new entity b).AddsOnly kind :=
  Frame.addsOnly_cons.mpr ⟨closed b hb, Frame.addsOnly_nil⟩

theorem Scheduler.sourced_idle (kind : Behavior → Prop) : Scheduler.idle.Sourced kind :=
  ⟨fun _ h => (List.not_mem_nil h).elim, fun _ h => (List.not_mem_nil h).elim,
    fun _ h => (by cases h)⟩

theorem Scheduler.Sourced.of_same_or_idle {kind : Behavior → Prop} {q r : Scheduler}
    (hq : q.Sourced kind) (h : r = q ∨ r = .idle) : r.Sourced kind := by
  rcases h with rfl | rfl
  · exact hq
  · exact Scheduler.sourced_idle kind

/-- All behaviors of a catalog are of some kind. -/
def Catalog.Holds (kind : Behavior → Prop) (c : Catalog) : Prop := ∀ b ∈ c.behaviors, kind b

namespace Catalog

theorem Holds.register {kind : Behavior → Prop} {c : Catalog} (hc : c.Holds kind) {b : Behavior}
    (hb : kind b) : (c.register b).2.Holds kind := by
  rw [Catalog.register]
  split
  · exact hc
  · exact List.forall_mem_append.mpr ⟨hc, List.forall_mem_singleton.mpr hb⟩

theorem hereditary_holds {adds kind : Behavior → Prop} (h : ∀ b, adds b → kind b) :
    Hereditary adds (Holds kind) :=
  ⟨fun _ none => (List.not_mem_nil none).elim, fun b hb hc => hc.register (h b hb)⟩

end Catalog

namespace Session

variable {s t : Session} {kind : Behavior → Prop}

/-- The tasks are as they were and the session runs if it did, or everything has been stopped. -/
inductive Carries (s t : Session) : Prop where
  | on (scheduler : t.scheduler = s.scheduler) (running : t.running = s.running)
  | off (scheduler : t.scheduler = .idle) (running : t.running = false)

namespace Carries

theorem trans {u : Session} (h : s.Carries t) (k : t.Carries u) : s.Carries u := by
  cases k with
  | on scheduler running =>
    cases h with
    | on before was => exact .on (scheduler.trans before) (running.trans was)
    | off before was => exact .off (scheduler.trans before) (running.trans was)
  | off scheduler running => exact .off scheduler running

theorem scheduler (h : s.Carries t) : t.scheduler = s.scheduler ∨ t.scheduler = .idle := by
  cases h with
  | on same _ => exact .inl same
  | off idle _ => exact .inr idle

end Carries

theorem carries_stopAll (s : Session) : s.Carries s.stopAll := by
  rw [stopAll]
  split
  · exact .on rfl rfl
  · exact .off rfl rfl

/-- A deed leaves the tasks as they are, or stops everything. -/
theorem Deed.carries (h : Deed s t) : s.Carries t := by
  cases h with
  | aside h =>
    rw [h.rest]
    exact .on rfl rfl
  | delete id =>
    rw [Session.deleteEntity]
    split <;> exact .on rfl rfl
  | stop => exact s.carries_stopAll
  | _ => exact .on rfl rfl

theorem Deeds.carries (h : Deeds s t) : s.Carries t := by
  induction h with
  | refl => exact .on rfl rfl
  | tail _ k ih => exact ih.trans k.carries

theorem Chores.carries {brings saves : String → Prop} {adds : Behavior → Prop}
    (h : Chores brings saves adds s t) : s.Carries t := by
  induction h with
  | refl => exact .on rfl rfl
  | tail _ k ih =>
    refine ih.trans ?_
    cases k with
    | trick h => exact h.feat.deed.carries
    | enroll hd h =>
      obtain ⟨x, stage, -, rfl⟩ := enroll_ok h
      exact .on rfl rfl
    | _ => exact .on rfl rfl

/-- So does a call that neither runs scripts nor queues a message. -/
theorem carries_plain {c : Call} (hc : c.Plain) (s : Session) : s.Carries (c.run.last s) := by
  by_cases keeps : c.KeepsScene
  · exact (c.chores hc keeps s).carries
  · have cleared (t : Session) (scheduler : t.scheduler = s.stopAll.scheduler)
        (running : t.running = s.stopAll.running) : s.Carries t :=
      s.carries_stopAll.trans (.on scheduler running)
    cases c with
    | loadScene scene =>
      exact (cleared (s.stocked scene) rfl rfl).trans (Chores.loadScene s scene).carries
    | cleanup => exact cleared _ rfl rfl
    | _ => exact absurd trivial keeps

theorem scheduler_requestClone (s : Session) (source : String) :
    (s.requestClone source).2.scheduler = s.scheduler := (s.requestClone_step source).fixed.2.1

/-- Catalogs and templates hold only behaviors of some kind, and tasks can add only such. -/
structure Sourced (kind : Behavior → Prop) (s : Session) : Prop
    extends s.AllCatalogs (Catalog.Holds kind) where
  tasks : s.scheduler.Sourced kind

namespace Sourced

theorem same (hs : s.Sourced kind) (catalogs : t.catalogs = s.catalogs)
    (templates : t.templates = s.templates) (tasks : t.scheduler = s.scheduler) : t.Sourced kind :=
  ⟨hs.toAllCatalogs.same catalogs templates, tasks ▸ hs.tasks⟩

theorem aside (hs : s.Sourced kind) (h : s.Aside t) : t.Sourced kind :=
  ⟨hs.toAllCatalogs.aside h, hs.tasks.of_same_or_idle (Deed.aside h).carries.scheduler⟩

theorem tricks (h : Tricks s t) (hs : s.Sourced kind) : t.Sourced kind := by
  induction h with
  | refl => exact hs
  | tail _ k ih =>
    exact ⟨ih.toAllCatalogs.trick k, ih.tasks.of_same_or_idle k.feat.deed.carries.scheduler⟩

theorem schedule (hs : s.Sourced kind) {q : Scheduler} (hq : q.Sourced kind) :
    ({ s with scheduler := q } : Session).Sourced kind := ⟨⟨hs.catalogs, hs.templates⟩, hq⟩

theorem behaviors (hs : s.Sourced kind) (id : String) (test : Trigger → Bool) :
    ∀ b ∈ s.behaviors id test, kind b := by
  intro b hb
  rw [Session.behaviors] at hb
  split at hb
  · rename_i c known
    exact hs.catalogs id c known b (List.mem_of_mem_filter hb)
  · exact (List.not_mem_nil hb).elim

end Sourced

end Session

/-! ## Scripts -/

namespace Play

open Session (Sourced)

variable {kind : Behavior → Prop}

theorem noting_sourced (kind : Behavior → Prop) : Noting (Keeps (Sourced kind)) where
  toWeaving := .of_attempts
    (last_bind (R := fun s t => Sourced kind s → Sourced kind t) fun first next => next ∘ first)
    fun {α f} hf _ s hs => by
      rw [last_attempt]
      exact hs.tricks (hf.tricks s)
  note hf _ _ _ s hs := hs.aside (hf s)

theorem sourced_addLoop {entity : String} {loop : Nat} {body : List Stmt}
    (h : kind ⟨loop, .forever, body⟩) : Keeps (Sourced kind) (addLoop entity loop body) := by
  intro s hs
  rcases Session.addLoop_cases entity loop body s with ⟨c, known, after⟩ | same
  · exact after ▸ ⟨hs.insert entity (Catalog.Holds.register (hs.catalogs _ _ known) h), hs.tasks⟩
  · exact same.symm ▸ hs

theorem sourced_schedule {f : Scheduler → Scheduler}
    (h : ∀ q : Scheduler, q.Sourced kind → (f q).Sourced kind) :
    Keeps (Sourced kind) (schedule f) := fun _ hs => hs.schedule (h _ hs.tasks)

section
variable {clone : String → Play Unit} (hc : ∀ source, Keeps (Sourced kind) (clone source))
include hc

theorem answers_runSlice {t : Task} (ht : t.AddsOnly kind) :
    Answers (Sourced kind) (Task.LeftOnly kind) (runSlice clone t) := by
  have hP := noting_sourced kind
  have performed : ∀ a, Keeps (Sourced kind) (perform clone t.entity a) := fun a =>
    hP.perform t.entity a (fun _ _ => hc) fun _ _ m =>
      hP.tell (fun s => s.aside_broadcast m) (Session.tidy_broadcast m).apart
        (Session.tidy_broadcast m).kept
  have slice : Answers (Sourced kind) (Slice.AddsOnly kind)
      ((host clone t.entity).run t.frames) :=
    hP.answers_run (h := host clone t.entity) (hP.ask _ fun _ _ => rfl) (hP.evaluate _) performed
      (fun name i => hP.skilled (Session.skill_setVariable _ name _).change)
      (fun _ _ => sourced_addLoop) (fun _ => hP.skilled (Session.skill_note _ _)) t.frames ht
  refine slice.bind fun r hr => ?_
  cases r with
  | finished => exact .pure fun _ h => (by cases h)
  | paused frames p =>
    refine .pure fun u h => ?_
    obtain rfl := Option.some.inj h
    exact hr

/-- A behavior at its beginning can add what it has loops. -/
theorem sourced_launchWith (closed : ∀ b, kind b → ∀ l ∈ b.loops, kind l) (entity : String)
    {b : Behavior} (hb : kind b) : Keeps (Sourced kind) (launchWith clone entity b) := by
  have activated : ∀ q : Scheduler, q.Sourced kind → (q.activate entity b.id).Sourced kind := by
    intro q hq
    rw [Scheduler.activate]
    split
    · exact hq
    · exact ⟨hq.waiting, hq.queue, hq.paused⟩
  refine (Answers.look (Q := fun _ => True) fun s _ => .ite _ (.pure trivial) ?_).keeps
  refine .after (sourced_schedule activated) fun _ =>
    (answers_runSlice hc (Task.addsOnly_new closed entity hb)).bind fun left hl => ?_
  cases left with
  | none =>
    exact .after (sourced_schedule fun q hq => ⟨hq.waiting, hq.queue, hq.paused⟩) fun _ =>
      .pure trivial
  | some t =>
    refine .after (sourced_schedule fun q hq => ⟨?_, hq.queue, hq.paused⟩) fun _ => .pure trivial
    exact List.forall_mem_append.mpr ⟨hq.waiting, List.forall_mem_singleton.mpr (hl t rfl)⟩

end

/-! ## Clones -/

section
variable (closed : ∀ b, kind b → ∀ l ∈ b.loops, kind l)
include closed

theorem launching_sourced {clone : String → Play Unit}
    (hc : ∀ source, Keeps (Sourced kind) (clone source)) :
    Launching (Keeps (Sourced kind)) (launchWith clone) kind where
  launch entity _ hb := sourced_launchWith hc closed entity hb
  look _ h s hs := h s hs.behaviors s hs

theorem sourced_createClone (source : String) : Keeps (Sourced kind) (createClone source) := by
  have hP := noting_sourced kind
  have request : ∀ source, Keeps (Sourced kind) (changing fun s => s.requestClone source) :=
    fun source s hs =>
      ⟨hs.clone source, s.scheduler_requestClone source ▸ hs.tasks⟩
  have next : Keeps (Sourced kind) nextCloneStart := by
    intro s hs
    cases queue : s.cloneStarts with
    | nil =>
      rw [last_of_ok (nextCloneStart_nil queue)]
      exact hs
    | cons id rest =>
      rw [last_of_ok (nextCloneStart_cons queue)]
      exact hs.same rfl rfl rfl
  exact hP.createClone
    (launching_sourced closed fun source => hP.queueClone (request source)) next (fun _ hs => hs)
    (request source) (fun h s hs => h s s hs) fun _ _ hs => hs.same rfl rfl rfl

theorem sourced_makeClone (source : String) : Keeps (Sourced kind) (makeClone source) :=
  (noting_sourced kind).discarded (sourced_createClone closed source)

/-! ## Tasks -/

theorem answers_resume {t : Task} (ht : t.AddsOnly kind) :
    Answers (Sourced kind) (Task.LeftOnly kind) (resume t) := by
  have hP := noting_sourced kind
  have retired : Keeps (Sourced kind) (retire t) :=
    sourced_schedule fun q hq => ⟨hq.waiting, hq.queue, hq.paused⟩
  have ended : Answers (Sourced kind) (Task.LeftOnly kind) (do
      retire t
      return none) := .after retired fun _ => .pure fun _ h => (by cases h)
  have waits : Answers (Sourced kind) (Task.LeftOnly kind)
      (pure (some t)) := .pure fun u h => Option.some.inj h ▸ ht
  refine .after (hP.ask _ fun _ _ => rfl) fun may => ?_
  cases may with
  | false => exact ended
  | true =>
    refine .after (hP.isReady t) fun ready => ?_
    cases ready with
    | false => exact waits
    | true =>
      refine (answers_runSlice (sourced_makeClone closed) ht).bind fun left hl => ?_
      cases left with
      | none => exact ended
      | some u => exact .pure hl

theorem answers_resumeEach (l : List Task) (hl : ∀ t ∈ l, t.AddsOnly kind) :
    Answers (Sourced kind) (fun left : List Task => ∀ t ∈ left, t.AddsOnly kind) (resumeEach l) := by
  induction l with
  | nil => exact .pure hl
  | cons t rest ih =>
    obtain ⟨first, others⟩ := List.forall_mem_cons.mp hl
    refine (answers_resume closed first).bind fun left hl => (ih others).bind fun still hs => ?_
    exact .pure (List.forall_mem_append.mpr ⟨fun u hu => hl u (Option.mem_toList.mp hu), hs⟩)

theorem sourced_resumeAll : Keeps (Sourced kind) resumeAll := by
  have taken : Answers (Sourced kind) (fun l : List Task => ∀ t ∈ l, t.AddsOnly kind) takeWaiting :=
    .changing fun s hs => ⟨hs.schedule ⟨fun _ h => (List.not_mem_nil h).elim, hs.tasks.queue,
      hs.tasks.paused⟩, hs.tasks.waiting⟩
  refine (taken.bind (R := fun _ => True) fun waiting hw =>
    (answers_resumeEach closed waiting hw).bind fun still hs => ?_).keeps
  refine .after ((noting_sourced kind).ask _ fun _ _ => rfl) fun running => .ite _ ?_ (.pure trivial)
  refine .of_keeps (sourced_schedule fun q hq => ⟨?_, hq.queue, hq.paused⟩)
  exact List.forall_mem_append.mpr ⟨hs, hq.waiting⟩

theorem sourced_runStarts (l : List (String × Behavior)) (hl : ∀ e ∈ l, kind e.2) :
    Keeps (Sourced kind) (runStarts l) := by
  have hP := noting_sourced kind
  have stopped : Keeps (Sourced kind) (schedule fun _ => .idle) :=
    sourced_schedule fun _ _ => Scheduler.sourced_idle kind
  induction l with
  | nil =>
    refine hP.bind (hP.ask _ fun _ _ => rfl) fun running => Tidying.ite _ ?_ stopped
    refine hP.bind (sourced_schedule fun q hq => ⟨hq.waiting, hq.queue, hq.paused⟩) fun _ => ?_
    refine fun s hs => ⟨hs.finishStart, ?_⟩
    show (finishStart s).scheduler.Sourced kind
    rw [finishStart, foldl_renewTemplate]
    exact hs.tasks
  | cons e rest ih =>
    obtain ⟨first, others⟩ := List.forall_mem_cons.mp hl
    refine hP.bind (hP.ask _ fun _ _ => rfl) fun running => Tidying.ite _ ?_ stopped
    refine hP.bind (sourced_schedule fun q hq => ⟨hq.waiting, others, hq.paused⟩) fun _ => ?_
    have begun : (Task.new e.1 e.2).AddsOnly kind := Task.addsOnly_new closed e.1 first
    refine ((answers_runSlice (sourced_makeClone closed) begun).bind (R := fun _ => True)
      fun left hl => .of_keeps ?_).keeps
    cases left with
    | none => exact ih others
    | some t => exact sourced_schedule fun q hq => ⟨hq.waiting, hq.queue, fun u h => hl u h⟩

theorem sourced_advanceStart : Keeps (Sourced kind) advanceStart := by
  have hP := noting_sourced kind
  refine (Answers.look (Q := fun _ => True) fun s hs => .of_keeps ?_).keeps
  refine Tidying.ite _ (hP.pure ()) (Tidying.ite _
    (sourced_schedule fun _ _ => Scheduler.sourced_idle kind) ?_)
  have starts := sourced_runStarts closed s.scheduler.startQueue hs.tasks.queue
  cases paused : s.scheduler.startTask with
  | none => exact starts
  | some t =>
    have ht := hs.tasks.paused t paused
    have parked : ∀ {u : Task}, u.AddsOnly kind →
        Keeps (Sourced kind) (schedule fun q => { q with startTask := some u }) := fun hu =>
      sourced_schedule fun q hq => ⟨hq.waiting, hq.queue, fun v h => Option.some.inj h ▸ hu⟩
    have continued : Keeps (Sourced kind) (continueStart t s.scheduler.startQueue) := by
      refine ((answers_runSlice (sourced_makeClone closed) ht).bind (R := fun _ => True)
        fun left hl => .of_keeps ?_).keeps
      cases left with
      | none => exact starts
      | some u => exact parked (hl u rfl)
    -- whether the start script waits is known only after looking at what it waits for
    have go : ∀ waits : Bool, Keeps (Sourced kind)
        (if waits then schedule fun q => { q with startTask := some t }
          else continueStart t s.scheduler.startQueue) :=
      fun waits => Tidying.ite _ (parked ht) continued
    refine hP.bind (sourced_schedule fun q hq => ⟨hq.waiting, hq.queue, fun _ h => by cases h⟩)
      fun _ => Tidying.ite _ ?_ (hP.bind (hP.pure false) go)
    exact hP.bind (hP.bind (hP.isReady t) fun _ => hP.pure _) go

theorem sourced_start : Keeps (Sourced kind) start := by
  have hP := noting_sourced kind
  refine hP.bind (hP.ask _ fun _ _ => rfl) fun running =>
    Tidying.ite _ (hP.skilled (Session.skill_note _ _)) ?_
  refine hP.bind (p := change _) (fun s hs => hs.same rfl rfl rfl) fun _ => ?_
  refine (Answers.look (Q := fun _ => True) fun s hs => .of_keeps ?_).keeps
  refine hP.bind (hP.skilled (Session.skill_note _ _)) fun _ =>
    hP.bind (sourced_schedule fun q hq => ⟨hq.waiting, fun e he => ?_, fun _ h => (by cases h)⟩)
      fun _ => sourced_advanceStart closed
  obtain ⟨id, -, there⟩ := List.mem_flatMap.mp he
  obtain ⟨b, hb, rfl⟩ := List.mem_map.mp there
  exact hs.behaviors id _ b hb

/-! ## Calls -/

theorem sourced_scriptCall (c : ScriptCall) : Keeps (Sourced kind) c.run := by
  have tick : ∀ dt, Keeps (Sourced kind) (tick dt) := by
    intro dt
    rw [Play.tick]
    split
    · exact fun s hs => hs.same rfl rfl rfl
    · exact fun s hs => hs
  exact (noting_sourced kind).scriptCall (launching_sourced closed (sourced_makeClone closed))
    (sourced_advanceStart closed) (sourced_resumeAll closed) tick (sourced_start closed)
    (sourced_createClone closed) c

/-- **Every call keeps a session sourced** that adds only behaviors of the kind. -/
theorem sourced_call (c : Call) (offered : ∀ b, c.Adds b → kind b) :
    Keeps (Sourced kind) c.run := by
  intro s hs
  by_cases plain : c.Plain
  · exact ⟨hs.plain (Catalog.hereditary_holds offered) plain,
      hs.tasks.of_same_or_idle (Session.carries_plain plain s).scheduler⟩
  · cases c with
    | script c => exact sourced_scriptCall closed c s hs
    | broadcast message => exact hs.aside (s.aside_broadcast message)
    | _ => exact absurd trivial plain

end

end Play

/-! ## The theorem -/

/-- Every behavior that a call may add is a hat of a program of some kind. -/
def Call.Offers (kind : Program → Prop) (c : Call) : Prop :=
  ∀ b, c.Adds b → ∃ p first, kind p ∧ b ∈ (p.compile first).behaviors

/-- Some program of a kind places the behavior. -/
def Program.Sources (kind : Program → Prop) (b : Behavior) : Prop :=
  ∃ p first, kind p ∧ (p.compile first).Places b

theorem Program.Sources.loops {kind : Program → Prop} {b : Behavior} (h : Sources kind b) :
    ∀ l ∈ b.loops, Sources kind l := by
  obtain ⟨p, first, hp, places⟩ := h
  exact fun l hl => ⟨p, first, hp, places.loops l hl⟩

theorem Call.Offers.sources {kind : Program → Prop} {c : Call} (h : c.Offers kind) :
    ∀ b, c.Adds b → Program.Sources kind b := by
  intro b adds
  obtain ⟨p, first, hp, hat⟩ := h b adds
  exact ⟨p, first, hp, .inl hat⟩

namespace Session

/-- The run invariant: as long as calls add only behaviors of some kind, there are no others. -/
theorem sourced_of_visitedBy {kind : Behavior → Prop} (closed : ∀ b, kind b → ∀ l ∈ b.loops, kind l)
    {allowed : Call → Prop} (offered : ∀ c, allowed c → ∀ b, c.Adds b → kind b) {s : Session}
    (h : s.VisitedBy allowed) : s.Sourced kind := by
  induction h with
  | fresh config g budget => exact ⟨.of_empty rfl rfl, Scheduler.sourced_idle kind⟩
  | call c hc _ ih => exact Play.sourced_call closed c (offered c hc) _ ih

/-- **What is found in a catalog has been placed there by a program that was offered**, as a hat or as
    a loop of its scripts, whatever has run since.  The mask of that program names the kind of event
    that the behavior waits for exactly if it is a hat, or some hat runs in every frame. -/
theorem required_of_catalogs {kind : Program → Prop} {s : Session}
    (visited : s.VisitedBy (Call.Offers kind)) {id : String} {c : Catalog} {b : Behavior}
    (known : s.catalogs.get? id = some c) (hb : b ∈ c.behaviors) :
    ∃ p first, kind p ∧ (p.compile first).Places b ∧
      ((p.compile first).required.has b.trigger.kind = true
        ↔ b ∈ (p.compile first).behaviors ∨
          ∃ hat ∈ (p.compile first).behaviors, hat.trigger = .forever) := by
  have sourced : s.Sourced (Program.Sources kind) :=
    sourced_of_visitedBy (fun _ h => h.loops) (fun _ h => h.sources) visited
  obtain ⟨p, first, hp, places⟩ := sourced.catalogs id c known b hb
  exact ⟨p, first, hp, places, places.has_iff⟩

/-- At the start a loop without an end, which does nothing. -/
def circle : Program :=
  [.mk "when_game_starts" [] [] [("DO", [.mk "forever" [] [] []])]]

/-- A session that has been started with such a program. -/
def circling : Session :=
  (fresh .usual (Generator.ofSeed 0) 0).after
    [.register (Spawn.new "a"), .addBehaviors "a" (circle.compile 1), .script .start]

theorem visitedBy_circling : circling.VisitedBy (Call.Offers (· = circle)) := by
  refine (VisitedBy.fresh _ _ _).after _ fun c hc b adds => ?_
  simp only [List.mem_cons, List.not_mem_nil, or_false] at hc
  rcases hc with rfl | rfl | rfl
  · exact adds.elim
  · exact ⟨circle, 1, rfl, adds⟩
  · exact adds.elim

/-- The loop has got into the catalog. -/
theorem looping_circling :
    ∃ c b, circling.catalogs.get? "a" = some c ∧ b ∈ c.behaviors ∧ b.trigger = .forever := by
  have found : ((circling.catalogs.get? "a").elim false fun c =>
      c.behaviors.any fun b => b.trigger == .forever) = true := by decide +kernel
  cases known : circling.catalogs.get? "a" with
  | none =>
    rw [known] at found
    cases found
  | some c =>
    rw [known] at found
    obtain ⟨b, there, loops⟩ := List.any_eq_true.mp found
    exact ⟨c, b, rfl, there, eq_of_beq loops⟩

theorem required_of_catalogs_circling :
    ∃ c b, circling.catalogs.get? "a" = some c ∧ b ∈ c.behaviors ∧ b.trigger = .forever ∧
      ∃ p first, p = circle ∧ (p.compile first).Places b ∧
        ((p.compile first).required.has b.trigger.kind = true
          ↔ b ∈ (p.compile first).behaviors ∨
            ∃ hat ∈ (p.compile first).behaviors, hat.trigger = .forever) := by
  obtain ⟨c, b, known, there, loops⟩ := looping_circling
  exact ⟨c, b, known, there, loops, required_of_catalogs visitedBy_circling known there⟩

/-- The loop is in the catalog, and the mask does not name the kind of event that it waits for. -/
theorem not_required_circling :
    circling.VisitedBy (Call.Offers (· = circle)) ∧
      (∃ c b, circling.catalogs.get? "a" = some c ∧ b ∈ c.behaviors ∧ b.trigger = .forever) ∧
      (circle.compile 1).required.has .forever = false :=
  ⟨visitedBy_circling, looping_circling, by decide +kernel⟩

end Session

end BlockStage
