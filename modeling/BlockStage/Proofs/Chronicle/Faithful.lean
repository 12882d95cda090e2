/-
  The watched session is the session.

  1. **The machine (`Host.Tells.run`)** — a script that is watched by its surroundings runs as the
     same script does; and it is seen at work only while its entity may run, since the machine asks
     before each step.

  2. **The theorem (`Call.told`)** — every watched call tells what the call does.  The lemmas follow
     the functions of the session one by one; which occasions there can be is said by whoever uses
     them, so that it is known of each part of a call what is never seen in it.

  3. So the moments of all calls are a trace of what the calls do (`Session.trace_chronicle`), and a
     trace is a course (`Session.Trace.course`).
-/
import BlockStage.Proofs.Chronicle.Tells
import BlockStage.Proofs.Session.Course

namespace BlockStage

open Session (Trace Change Changes Effect)

/-! ## The machine -/

/-- Watched surroundings of a script, which is seen at work only while it may run. -/
structure Host.Tells (A : Occasion → Prop) (may : Session → Prop) (h : Host Chronicle)
    (k : Host Play) : Prop where
  alive : Chronicle.Tells A (fun _ => True) h.alive k.alive fun going s => going = true → may s
  eval : ∀ e, Chronicle.Tells A may (h.eval e) (k.eval e) fun _ => may
  perform : ∀ a, Chronicle.Tells A may (h.perform a) (k.perform a) fun _ _ => True
  count : ∀ name i, Chronicle.Tells A may (h.count name i) (k.count name i) fun _ _ => True
  addLoop : ∀ loop body, Chronicle.Tells A may (h.addLoop loop body) (k.addLoop loop body)
    fun _ _ => True
  report : ∀ message, Chronicle.Told A (h.report message) (k.report message)

namespace Host.Tells

open Chronicle

variable {A : Occasion → Prop} {may : Session → Prop} {h : Host Chronicle} {k : Host Play}
  (hk : Host.Tells A may h k)
include hk

theorem resolve (s : Stmt) :
    Chronicle.Tells A may (h.resolve s) (k.resolve s) fun _ _ => True := by
  cases s with
  | action a =>
    refine (hk.perform a).bind fun flow => ?_
    cases flow with
    | fail message => exact (hk.report message).bind fun _ => Told.pure _
    | _ => exact Told.pure _
  | forever loop body => exact (hk.addLoop loop body).bind fun _ => Told.pure _
  | branch condition yes no => exact (hk.eval _).bind fun _ => (Told.pure _).of
  | repeatTimes times body => exact (hk.eval _).bind fun _ => (Told.pure _).of
  | repeatUntil condition body => exact (hk.eval _).bind fun _ => (Told.pure _).of
  | waitUntil condition => exact (hk.eval _).bind fun _ => (Told.pure _).of
  | forEach name n body =>
    refine (hk.eval _).bind fun v => ?_
    exact .ite _ (fun _ => (Told.pure _).of) fun _ => (hk.count _ _).bind fun _ => Told.pure _

theorem again (kind : Loop) :
    Chronicle.Tells A may (h.again kind) (k.again kind) fun _ _ => True := by
  cases kind with
  | times n => exact (Told.pure _).of
  | untilTrue condition => exact (hk.eval _).bind fun _ => (Told.pure _).of
  | each name index n =>
    exact .ite _ (fun _ => (hk.count _ _).bind fun _ => Told.pure _) fun _ => (Told.pure _).of

/-- **The machine is watched through its surroundings**: it asks whether it may go on before each
    step, so it is only then at work. -/
theorem run (frames : List Frame) : Told A (h.run frames) (k.run frames) := by
  -- the recursion is the machine's own: every call is on a lighter stack
  have rest : ∀ left, Frame.weights left < Frame.weights frames → Told A (h.run left) (k.run left) :=
    fun left _ => run left
  cases frames with
  | nil =>
    rw [Host.run.eq_def, Host.run.eq_def]
    refine hk.alive.bind fun going => ?_
    cases going <;> exact (Told.pure _).of
  | cons f fs =>
    cases ht : f.take? with
    | some taken =>
      obtain ⟨s, g⟩ := taken
      rw [Host.run_take ht, Host.run_take ht]
      refine hk.alive.bind fun going => ?_
      cases going with
      | false => exact (Told.pure _).of
      | true =>
        refine Chronicle.Tells.bind ((hk.resolve s).weaken (fun _ live => live rfl) fun _ _ => id)
          fun o => ?_
        have next := rest (s.enter o ++ g :: fs) (Frame.weights_enter_lt ht o fs)
        cases o with
        | pause p => exact Told.pure _
        | finish => exact Told.pure _
        | _ => exact next
    | none =>
      rw [Host.run_over ht, Host.run_over ht]
      refine hk.alive.bind fun going => ?_
      cases going with
      | false => exact (Told.pure _).of
      | true =>
        cases f with
        | sequence l => exact (rest fs (Frame.weights_lt_cons _ fs)).of
        | loop kind body l => exact (Told.pure _).of
        | turned kind body =>
          refine Chronicle.Tells.bind ((hk.again kind).weaken (fun _ live => live rfl) fun _ _ => id)
            fun turn => ?_
          cases turn with
          | none => exact rest fs (Frame.weights_lt_cons _ fs)
          | some next =>
            exact rest (.loop next body body :: fs) (Frame.weights_turn_lt kind next body fs)
termination_by Frame.weights frames

end Host.Tells

/-! ## Scripts -/

namespace Chronicle

variable {α β : Type} {A : Occasion → Prop} (hA : ∀ o : Occasion, o.Scripted → A o)
include hA

omit hA in
/-- The text of an expression, before something is done with it. -/
theorem told_text {f : String → Chronicle β} {g : String → Play β} (entity : String) (e : Expr)
    (h : ∀ x, Told A (f x) (g x)) :
    Told A ((liftM (Play.text entity e) : Chronicle String) >>= f) (Play.text entity e >>= g) :=
  Told.bind (.silent fun s => .feats (Play.weaving_tricks.text entity e s).feats) h

theorem told_post (message : String) :
    Told A (post message) (Play.change fun s => s.broadcast message) := by
  rw [post]
  have blank : ∀ s : Session, trimText message = "" → s.broadcast message = s :=
    fun s h => if_pos h
  have named : ∀ s : Session, trimText message ≠ "" → s.broadcast message
      = { s with inbox := s.inbox ++ [trimText message] }.note .event
        ("broadcast " ++ trimText message) := fun s h => if_neg h
  split
  · rename_i h
    refine .change fun s => ?_
    rw [blank s h]
    exact .refl s
  · rename_i h
    refine .seen (hA _ trivial) fun s => ⟨_, .post h, ?_⟩
    rw [← named s h]
    exact .refl _

/-- An action is told of if making a clone is. -/
theorem tells_perform {clone : String → Chronicle Unit} {make : String → Play Unit}
    (hc : ∀ source, Told A (clone source) (make source)) (entity : String) (behavior : Nat)
    (a : Action) :
    Tells A (fun s => s.mayRun entity = true) (perform clone entity behavior a)
      (Play.perform make entity a) fun _ _ => True := by
  -- an action that neither makes a clone nor queues a message is done at once
  have done : ∀ {f : Play Flow}, (∀ s, a.outcome entity s = f.last s) →
      Tells A (fun s => s.mayRun entity = true) (seen (.work entity behavior (.act a)) f) f
        fun _ _ => True := by
    intro f same
    refine .seen (hA _ trivial) (fun s may => ⟨_, .work may, ?_⟩) fun _ _ _ _ _ => trivial
    exact (same s) ▸ .refl _
  cases a with
  | createClone source =>
    refine .marked (hA _ trivial) (fun s may => .work may) (Told.of ?_)
    exact told_text _ _ fun raw => (hc _).bind fun _ => .pure _
  | broadcast message =>
    refine .marked (hA _ trivial) (fun s may => .work may) (Told.of ?_)
    refine told_text _ _ fun m => .ite _ (.silent fun s => .feats ?_) ?_
    · exact (Play.weaving_tricks.complain _ _ _ s).feats
    · exact (told_post hA m).bind fun _ => .pure _
  | _ => exact done fun _ => rfl

omit hA in
/-- A script is seen to ask whether it may go on, if it may. -/
theorem alive_host (clone : String → Chronicle Unit) (entity : String) (behavior : Nat)
    (s : Session) : (host clone entity behavior).alive s
      = (.ok (s.mayRun entity) s,
        if s.mayRun entity then [⟨.work entity behavior .step, s⟩] else []) := by
  refine (bind_of_ok (a := s.mayRun entity) (t := s) rfl).trans ?_
  cases s.mayRun entity <;> rfl

/-- The surroundings of a script are watched while it is at work. -/
theorem tells_host {clone : String → Chronicle Unit} {make : String → Play Unit}
    (hc : ∀ source, Told A (clone source) (make source)) (entity : String) (behavior : Nat) :
    Host.Tells A (fun s => s.mayRun entity = true) (host clone entity behavior)
      (Play.host make entity) := by
  refine
    { alive := ⟨fun s => congrArg Prod.fst (alive_host clone entity behavior s), fun s _ => ?_,
        fun s going t _ h => ?_⟩
      eval := fun e => ?_
      perform := tells_perform hA hc entity behavior
      count := fun name i => ?_
      addLoop := fun loop body => ?_
      report := fun message => .skill (Session.skill_note _ _) }
  · show Trace A s ((host clone entity behavior).alive s).2 s
    rw [alive_host]
    split
    · rename_i may
      exact Trace.start.moment (hA _ trivial) (.work may)
    · exact .start
  · obtain ⟨rfl, rfl⟩ := EStateM.Result.ok.inj h
    exact id
  · refine .seen (hA _ trivial) (fun s may => ⟨s, .work may, ?_⟩) fun s v t may h => ?_
    · exact .feats (Play.weaving_tricks.evaluate entity e s).feats
    · obtain ⟨-, rfl⟩ := EStateM.Result.ok.inj h
      exact may
  · refine .seen (hA _ trivial) (fun s may => ⟨s, .work may, .feats ?_⟩) fun _ _ _ _ _ => trivial
    exact (Session.skill_setVariable entity name _).change.feats s
  · refine .seen (hA _ trivial) (fun s may => ⟨s, .work may, .feats ?_⟩) fun _ _ _ _ _ => trivial
    exact Session.feats_addLoop entity loop body s

theorem told_slice {clone : String → Chronicle Unit} {make : String → Play Unit}
    (hc : ∀ source, Told A (clone source) (make source)) (t : Task) :
    Told A (slice clone t) (Play.runSlice make t) := by
  refine ((tells_host hA hc t.entity t.behavior).run t.frames).bind fun r => ?_
  cases r <;> exact .pure _

/-! ## Launching -/

omit hA in
/-- A change of the tasks that wait and of the behaviors that are under way. -/
theorem told_tasks {f : Scheduler → Scheduler}
    (h : ∀ q, f q = { q with waiting := (f q).waiting, active := (f q).active }) :
    Told A (liftM (Play.schedule f)) (Play.schedule f) := by
  refine .change fun s => ?_
  rw [h s.scheduler]
  exact .one (.tasks _ _)

omit hA in
theorem activate_eq (q : Scheduler) (entity : String) (b : Nat) :
    q.activate entity b = { q with active := (q.activate entity b).active } := by
  rw [Scheduler.activate]
  split <;> rfl

/-- A launch is told of if making a clone is. -/
theorem told_launchWith {clone : String → Chronicle Unit} {make : String → Play Unit}
    (hc : ∀ source, Told A (clone source) (make source)) {entity : String} {b : Behavior}
    (hl : A (.launch entity b)) :
    Told A (launchWith clone entity b) (Play.launchWith make entity b) := by
  refine Tells.look fun s => .ite _ (fun _ => (Told.pure _).of) fun free => ?_
  obtain ⟨running, idle⟩ : s.running = true ∧ s.scheduler.isActive entity b.id = false := by
    simpa using free
  refine Tells.bind (m := fun _ _ => True) (.seen hl ?_ fun _ _ _ _ _ => trivial) fun _ => ?_
  · rintro t ⟨rfl, -⟩
    exact ⟨_, .launch running idle, .refl _⟩
  · refine (told_slice hA hc _).bind fun left => ?_
    cases left with
    | some t => exact (told_tasks fun _ => rfl).bind fun _ => .pure _
    | none => exact (told_tasks fun _ => rfl).bind fun _ => .pure _

/-! ## Clones -/

theorem told_request (source : String) :
    Told A (request source) (Play.changing fun s => s.requestClone source) :=
  .seen (hA _ trivial) fun _ => ⟨_, .clone source, .refl _⟩

theorem told_queueClone (source : String) : Told A (queueClone source) (Play.queueClone source) :=
  (told_request hA source).discarded

omit hA in
theorem told_nextCloneStart : Told A (liftM Play.nextCloneStart) Play.nextCloneStart := by
  refine .silent fun s => ?_
  cases queue : s.cloneStarts with
  | nil =>
    rw [Play.last_of_ok (Play.nextCloneStart_nil queue)]
    exact .refl s
  | cons id rest =>
    rw [Play.last_of_ok (Play.nextCloneStart_cons queue)]
    exact .one (.queue rest s.draining)

omit hA in
/-- What a test finds in a catalog passes the test. -/
theorem passes_of_mem_behaviors {s : Session} {id : String} {test : Trigger → Bool} {b : Behavior}
    (h : b ∈ s.behaviors id test) : test b.trigger = true := by
  rw [Session.behaviors] at h
  split at h
  · exact (List.mem_filter.mp h).2
  · exact (List.not_mem_nil h).elim

/-- Working off the queue, within any budget. -/
theorem told_startClones (budget : Nat) : Told A (startClones budget) (Play.startClones budget) := by
  induction budget with
  | zero => exact .silent fun s => .refl s
  | succ budget ih =>
    refine told_nextCloneStart.bind fun next => ?_
    cases next with
    | none => exact .pure ()
    | some id =>
      refine .ask fun s => Told.bind ?_ fun _ => ih
      refine .forM _ fun b hb => (told_launchWith hA (told_queueClone hA) ?_).discarded
      exact hA _ (passes_of_mem_behaviors hb)

theorem told_startQueuedClones : Told A startQueuedClones Play.startQueuedClones := by
  refine .look fun s => .ite _ ?_ (.pure ())
  refine Told.bind (.change fun s => .one (.queue s.cloneStarts true)) fun _ => ?_
  refine (told_startClones hA _).bind fun _ => .change fun s => .one (.queue s.cloneStarts false)

theorem told_createClone (source : String) :
    Told A (createClone source) (Play.createClone source) := by
  refine (told_request hA source).bind fun r => ?_
  cases r with
  | error e => exact .pure _
  | ok id => exact (told_startQueuedClones hA).bind fun _ => .pure _

theorem told_makeClone (source : String) : Told A (makeClone source) (Play.makeClone source) :=
  (told_createClone hA source).discarded

theorem told_launch {entity : String} {b : Behavior} (hl : A (.launch entity b)) :
    Told A (launch entity b) (Play.launch entity b) :=
  told_launchWith hA (told_makeClone hA) hl

/-! ## Tasks -/

/-- A task is looked at while its entity may run. -/
theorem tells_look (t : Task) :
    Tells A (fun s => s.mayRun t.entity = true) (look t) (Play.isReady t) fun _ _ => True :=
  .seen (hA _ trivial) (fun s may => ⟨s, .work may, .feats (Play.weaving_tricks.isReady t s).feats⟩)
    fun _ _ _ _ _ => trivial

omit hA in
theorem told_retire (t : Task) : Told A (liftM (Play.retire t)) (Play.retire t) :=
  told_tasks fun _ => rfl

theorem told_resume (t : Task) : Told A (resume t) (Play.resume t) := by
  refine Tells.ask fun s => ?_
  cases may : s.mayRun t.entity with
  | false => exact ((told_retire t).bind fun _ => .pure none).of
  | true =>
    refine Tells.bind ((tells_look hA t).weaken (fun u hu => ?_) fun _ _ => id) fun ready => ?_
    · rw [hu.1, may]
    · cases ready with
      | false => exact Told.pure _
      | true =>
        refine (told_slice hA (told_makeClone hA) t).bind fun left => ?_
        cases left with
        | some t => exact Told.pure _
        | none => exact (told_retire t).bind fun _ => .pure none

theorem told_resumeEach (l : List Task) : Told A (resumeEach l) (Play.resumeEach l) := by
  induction l with
  | nil => exact .pure _
  | cons t rest ih =>
    exact (told_resume hA t).bind fun _ => ih.bind fun _ => .pure _

theorem told_resumeAll : Told A resumeAll Play.resumeAll := by
  have taken : Told A (liftM Play.takeWaiting) Play.takeWaiting :=
    .silent fun s => .one (.tasks [] s.scheduler.active)
  refine taken.bind fun waiting => (told_resumeEach hA waiting).bind fun still => ?_
  exact .ask fun s => .ite _ (told_tasks fun _ => rfl) (.pure ())

/-! ## The start phase -/

section
variable (hS : ∀ o : Occasion, o.Starting → A o)
include hS

omit hA in
theorem told_park (t : Task) :
    Told A (park t) (Play.schedule fun q => { q with startTask := some t }) :=
  .seen (hS _ trivial) fun _ => ⟨_, .parked t, .refl _⟩

omit hA hS in
/-- An idle session drops its tasks. -/
theorem tells_idle : Tells A (fun s => s.running = false)
    (liftM (Play.schedule fun _ => .idle)) (Play.schedule fun _ => .idle) fun _ _ => True :=
  .silent (fun _ idle => .one (.idle idle)) fun _ _ _ _ _ => trivial

theorem told_runStarts (l : List (String × Behavior)) :
    Told A (runStarts l) (Play.runStarts l) := by
  have dropped : ∀ s : Session, ¬s.running = true →
      Tells A (fun t => t = s ∧ True) (liftM (Play.schedule fun _ => .idle))
        (Play.schedule fun _ => .idle) fun _ _ => True :=
    fun s idle => tells_idle.weaken (fun t ht => ht.1 ▸ Bool.eq_false_iff.mpr idle) fun _ _ => id
  induction l with
  | nil =>
    refine Tells.ask fun s => .ite _ (fun running => ?_) (dropped s)
    refine .seen (hS _ trivial) ?_ fun _ _ _ _ _ => trivial
    rintro t ⟨rfl, -⟩
    exact ⟨_, .complete running, .refl _⟩
  | cons e rest ih =>
    obtain ⟨entity, b⟩ := e
    refine Tells.ask fun s => .ite _ (fun running => ?_) (dropped s)
    refine Tells.bind (m := fun _ _ => True) (.seen (hS _ trivial) ?_ fun _ _ _ _ _ => trivial)
      fun _ => ?_
    · rintro t ⟨rfl, -⟩
      exact ⟨_, .opened entity b rest running, .refl _⟩
    · refine (told_slice hA (told_makeClone hA) _).bind fun left => ?_
      cases left with
      | some t => exact told_park hS t
      | none => exact Told.marked (hS _ trivial) (fun _ => .closed entity b.id) ih

theorem told_continueStart (t : Task) (rest : List (String × Behavior)) :
    Told A (continueStart t rest) (Play.continueStart t rest) := by
  refine (told_slice hA (told_makeClone hA) t).bind fun left => ?_
  cases left with
  | some t => exact told_park hS t
  | none =>
    exact Told.marked (hS _ trivial) (fun _ => .closed t.entity t.behavior)
      (told_runStarts hA hS rest)

theorem told_advanceStart : Told A advanceStart Play.advanceStart := by
  refine Tells.look fun s => .ite _ (fun _ => (Told.pure _).of) fun _ => ?_
  refine .ite _ (fun idle => tells_idle.weaken ?_ fun _ _ => id) fun _ => ?_
  · rintro t ⟨rfl, -⟩
    simpa using idle
  cases waiting : s.scheduler.startTask with
  | none => exact (told_runStarts hA hS _).of
  | some t =>
    refine Tells.bind (m := fun _ u => u.mayRun t.entity = s.mayRun t.entity)
      (.seen (hS _ trivial) ?_ ?_) fun _ => ?_
    · rintro u ⟨rfl, -⟩
      exact ⟨_, .fetched waiting, .refl _⟩
    · rintro u _ v ⟨rfl, -⟩ hv
      obtain ⟨-, rfl⟩ := EStateM.Result.ok.inj hv
      rfl
    -- whether the start script waits is known only after looking at what it waits for
    have go : ∀ waits : Bool, Told A
        (if waits then park t else continueStart t s.scheduler.startQueue)
        (if waits then Play.schedule fun q => { q with startTask := some t }
          else Play.continueStart t s.scheduler.startQueue) :=
      fun waits => .ite _ (told_park hS t) (told_continueStart hA hS t _)
    refine .ite _ (fun may => ?_) fun _ => Tells.bind (Told.pure false).of go
    have looked := (tells_look hA t).weaken
      (fun (u : Session) (hu : u.mayRun t.entity = s.mayRun t.entity) => hu.trans may) fun _ _ => id
    exact Tells.bind (looked.bind fun _ => Told.pure _) go

omit hA hS in
/-- Starting an idle session is one change, and then the start phase goes on. -/
theorem start_eq : Play.start = (do
    if ← Play.ask Session.running then
      Play.change fun s => s.note .info "start ignored: already running"
    else
      Play.change Session.begun
      Play.advanceStart) := rfl

theorem told_start (start : A .start) : Told A Chronicle.start Play.start := by
  rw [start_eq]
  refine Tells.ask fun s => .ite _ (fun _ => (Told.skill (Session.skill_note _ _)).of) fun idle => ?_
  refine Tells.bind (.seen start ?_ fun _ _ _ _ _ => trivial) fun _ => told_advanceStart hA hS
  rintro t ⟨rfl, -⟩
  exact ⟨_, .start (Bool.eq_false_iff.mpr idle), .refl _⟩

end

/-! ## Delivery -/

theorem told_launchEach {entity : String} (l : List Behavior)
    (hl : ∀ b ∈ l, A (.launch entity b)) :
    Told A (launchEach entity l) (Play.launchEach entity l) := by
  induction l with
  | nil => exact .pure 0
  | cons b rest ih =>
    have others : ∀ launched : Bool, Told A (do
        let others ← launchEach entity rest
        return (if launched then 1 else 0) + others) (do
        let others ← Play.launchEach entity rest
        return (if launched then 1 else 0) + others) :=
      fun launched => (ih fun b hb => hl b (List.mem_cons_of_mem _ hb)).bind fun _ => .pure _
    refine .ask fun s => ?_
    cases s.isLive entity with
    | true => exact (told_launch hA (hl b List.mem_cons_self)).bind others
    | false => exact (Told.pure false).bind others

theorem told_launchAll {test : Trigger → Bool}
    (ht : ∀ id (b : Behavior), test b.trigger = true → A (.launch id b)) (ids : List String) :
    Told A (launchAll test ids) (Play.launchAll test ids) := by
  induction ids with
  | nil => exact .pure ()
  | cons id rest ih =>
    refine .ask fun s => Told.bind ?_ fun _ => ih
    exact (told_launchEach hA _ fun b hb => ht id b (passes_of_mem_behaviors hb)).discarded

theorem told_runLoops (hf : ∀ id (b : Behavior), b.trigger = .forever → A (.launch id b)) :
    Told A runLoops Play.runLoops := by
  refine .look fun s => .ite _ ?_ (.pure ())
  exact told_launchAll hA (fun id b hb => hf id b (eq_of_beq hb)) _

omit hA in
/-- What passes a test of the target it waits for is waiting for touches. -/
theorem touching_of_test {t : Trigger} {test : Target → Bool}
    (h : (match t with
      | .touching target => test target
      | _ => false) = true) : ∃ target, t = .touching target := by
  split at h
  · exact ⟨_, rfl⟩
  · cases h

section
variable (ht : ∀ id (b : Behavior) target, b.trigger = .touching target → A (.launch id b))
include ht

omit ht in
theorem told_fireOnce {id : String} {b : Behavior} (hl : A (.launch id b)) (fired : Play.Fired) :
    Told A (fireOnce id b fired) (Play.fireOnce id b fired) :=
  .ite _ (.pure _) ((told_launch hA hl).discarded.bind fun _ => .pure _)

theorem told_deliverSide (id : String) (viewer other : Handle) (l : List Behavior)
    (fired : Play.Fired) :
    Told A (deliverSide id viewer other l fired) (Play.deliverSide id viewer other l fired) := by
  induction l generalizing fired with
  | nil => exact .pure _
  | cons b rest ih =>
    refine .look fun s => Tells.ite _ (fun wanted => ?_) fun _ => Told.bind (.pure fired) ih
    obtain ⟨target, touching⟩ := touching_of_test wanted
    exact (told_fireOnce hA (ht id b target touching) fired).bind ih

theorem told_deliverPairs (l : List ((String × Handle) × (String × Handle)))
    (fired : Play.Fired) : Told A (deliverPairs l fired) (Play.deliverPairs l fired) := by
  induction l generalizing fired with
  | nil => exact .pure _
  | cons pair rest ih =>
    obtain ⟨a, b⟩ := pair
    refine .look fun s => .ite _ (.pure none) (.ite _ (ih fired) ?_)
    refine Told.bind (.change fun s => ?_) fun _ => .ask fun s =>
      (told_deliverSide hA ht _ _ _ _ _).bind fun fired => .ask fun s =>
      (told_deliverSide hA ht _ _ _ _ _).bind ih
    -- the pair is noted, and told of unless it touched before
    have noted : s.Beside { s with touching := s.touching ++ [Event.sortedPair a.1 b.1] } :=
      ⟨⟨rfl, rfl⟩, rfl, rfl⟩
    dsimp only
    split
    · exact .one (.feat (.beside noted))
    · exact .one (.feat (.beside (noted.trans (Session.beside_emit _ _ rfl rfl))))

theorem told_deliverWorld (id : String) (h : Handle) (l : List Behavior) (fired : Play.Fired) :
    Told A (deliverWorld id h l fired) (Play.deliverWorld id h l fired) := by
  induction l generalizing fired with
  | nil => exact .pure _
  | cons b rest ih =>
    refine .look fun s => .ite _ (.pure fired) ?_
    refine Tells.ite _ (fun touches => ?_) fun _ => Told.bind (.pure fired) ih
    obtain ⟨target, touching⟩ := touching_of_test touches
    exact (told_fireOnce hA (ht id b target touching) fired).bind ih

theorem told_deliverWorlds (l : List (String × Handle)) (fired : Play.Fired) :
    Told A (deliverWorlds l fired) (Play.deliverWorlds l fired) := by
  induction l generalizing fired with
  | nil => exact .pure ()
  | cons e rest ih => exact .ask fun s => (told_deliverWorld hA ht _ _ _ _).bind ih

theorem told_deliverTouches : Told A deliverTouches Play.deliverTouches := by
  have noted : ∀ {f : Session → Session}, (∀ s : Session, s.Beside (f s)) →
      Told A (liftM (Play.change f)) (Play.change f) :=
    fun hf => .change fun s => .one (.feat (.beside (hf s)))
  have forgotten : Told A (liftM (Play.change fun s => { s with touching := [] }))
      (Play.change fun s => { s with touching := [] }) :=
    noted fun s => ⟨⟨rfl, rfl⟩, rfl, rfl⟩
  refine forgotten.bind fun _ => .look fun s => .ite _ ?_ ?_
  · exact noted fun s => ⟨⟨rfl, rfl⟩, rfl, rfl⟩
  · refine (told_deliverPairs hA ht _ _).bind fun fired => ?_
    cases fired with
    | none => exact .pure ()
    | some fired =>
      exact (told_deliverWorlds hA ht _ _).bind fun _ => noted fun s => ⟨⟨rfl, rfl⟩, rfl, rfl⟩

end

/-! ## Messages -/

section
variable (hD : ∀ o : Occasion, o.Delivering → A o)
include hD

theorem told_handleEach {entity message : String} (l : List Behavior)
    (hl : ∀ b ∈ l, b.trigger = .message message) (handlers : Nat) :
    Told A (handleEach entity l handlers) (Play.handleEach entity l handlers) := by
  induction l generalizing handlers with
  | nil => exact .pure _
  | cons b rest ih =>
    have rest : ∀ launched : Bool, Told A
        (handleEach entity rest (if launched then handlers + 1 else handlers))
        (Play.handleEach entity rest (if launched then handlers + 1 else handlers)) :=
      fun launched => ih (fun b hb => hl b (List.mem_cons_of_mem _ hb)) _
    refine .look fun s => .ite _ (.pure none) ?_
    refine .marked (hD _ trivial) (fun _ => .turn entity b) (.ite _ ?_ ?_)
    · have waits : b.trigger ≠ .forever := by
        rw [hl b List.mem_cons_self]
        exact fun h => by cases h
      exact (told_launch hA (hD (.launch entity b) waits)).bind rest
    · exact (Told.pure false).bind rest

theorem told_handleMessage (message : String) (ids : List String) (handlers : Nat) :
    Told A (handleMessage message ids handlers) (Play.handleMessage message ids handlers) := by
  induction ids generalizing handlers with
  | nil => exact .pure _
  | cons id rest ih =>
    refine .marked (hD _ trivial) (fun _ => .visit id) (.ask fun s => ?_)
    have fits : ∀ b ∈ s.behaviors id (fun t => t == .message message),
        b.trigger = .message message :=
      fun b hb => eq_of_beq (passes_of_mem_behaviors hb)
    refine (told_handleEach hA hD _ fits handlers).bind fun handled => ?_
    cases handled with
    | none => exact .pure none
    | some handlers => exact ih handlers

theorem told_deliverMessages (l : List String) :
    Told A (deliverMessages l) (Play.deliverMessages l) := by
  induction l with
  | nil => exact .pure ()
  | cons m rest ih =>
    refine .marked (hD _ trivial) (fun _ => .deliver m) (.ask fun s => ?_)
    refine (told_handleMessage hA hD _ _ _).bind fun handled => ?_
    cases handled with
    | none => exact .pure ()
    | some handlers =>
      refine Told.bind (.seen (hD _ trivial) fun s => ?_) fun _ => ih
      exact ⟨_, .delivered m handlers, .refl _⟩

end

/-! ## Keys and the pointer -/

theorem told_keyDown (hk : ∀ id (b : Behavior) key, b.trigger = .key key → A (.launch id b))
    (raw : String) : Told A (keyDown raw) (Play.keyDown raw) := by
  rw [keyDown, Play.keyDown]
  cases Key.parse? raw with
  | none => exact .pure false
  | some key =>
    have pressed : Session.Skill fun s => ((), { s with input := (s.input.press key).2 }) :=
      Session.skill_beside _ (fun _ => ⟨⟨rfl, rfl⟩, rfl, rfl⟩) (fun _ _ => rfl) fun _ => ⟨rfl, .refl _⟩
    refine (Told.skill pressed).bind fun _ => .look fun s => .ite _ (Told.bind ?_ fun _ => .pure _)
      (.pure _)
    refine told_launchAll hA (fun id b hb => ?_) _
    split at hb
    · exact hk id b _ ‹_›
    · cases hb

theorem told_pointerDown (hc : ∀ id (b : Behavior), b.trigger = .click → A (.launch id b))
    (p : Vec Float32) : Told A (pointerDown p) (Play.pointerDown p) := by
  have pressed : Session.Skill fun s =>
      ((), { s with input := { s.input with pointer := p, pressed := true } }) :=
    Session.skill_beside _ (fun _ => ⟨⟨rfl, rfl⟩, rfl, rfl⟩) (fun _ _ => rfl) fun _ => ⟨rfl, .refl _⟩
  refine (Told.skill pressed).bind fun _ => .look fun s => .ite _ (.pure none) ?_
  cases Play.topmost? s p with
  | none => exact .pure none
  | some top =>
    obtain ⟨depth, id⟩ := top
    refine Told.bind (told_launchEach hA _ fun b hb => ?_).discarded fun _ => .pure _
    exact hc id b (eq_of_beq (passes_of_mem_behaviors hb))

/-! ## Rounds -/

omit hA in
theorem told_countPhase (name : String) :
    Told A (liftM (Play.countPhase name)) (Play.countPhase name) :=
  .change fun s => .one (.feat (.stage (s.stage.calm_record name)))

omit hA in
theorem told_tick (dt : Float32) : Told A (liftM (Play.tick dt)) (Play.tick dt) := by
  refine .silent fun s => ?_
  rw [Play.tick]
  split
  · exact .one (.feat (.beside ⟨⟨rfl, rfl⟩, rfl, rfl⟩))
  · exact .refl s

/-- The part of an update that comes before the delivery of messages. -/
theorem told_updateBy (update : A .update) (advance : Told A advanceStart Play.advanceStart)
    (loops : Told A runLoops Play.runLoops) (touches : Told A deliverTouches Play.deliverTouches)
    (messages : ∀ l, Told A (deliverMessages l) (Play.deliverMessages l)) (dt : Float32) :
    Told A (updateBy dt) (Play.updateBy dt) := by
  refine Tells.ask fun s => .ite _ (fun running => ?_) fun _ => (Told.pure ()).of
  refine Tells.bind (m := fun _ _ => True) (.seen update ?_ fun _ _ _ _ _ => trivial)
    fun inbox => ?_
  · rintro t ⟨rfl, -⟩
    exact ⟨_, .update running, .refl _⟩
  -- the second half of a round, which is run whether or not touches are delivered
  have rest : Told A
      (do
        Play.countPhase "touching"
        if ← Play.ask Session.running then deliverMessages inbox
        Play.countPhase "messages")
      (do
        Play.countPhase "touching"
        if ← Play.ask Session.running then Play.deliverMessages inbox
        Play.countPhase "messages") :=
    (told_countPhase _).bind fun _ => .ask fun s =>
      .ite _ ((messages inbox).bind fun _ => told_countPhase _) (told_countPhase _)
  exact (told_tick _).bind fun _ => (Told.skill (Session.skill_stepPhysics _)).bind fun _ =>
    (told_countPhase _).bind fun _ => advance.bind fun _ => (told_resumeAll hA).bind fun _ =>
    (told_countPhase _).bind fun _ => loops.bind fun _ => (told_countPhase _).bind fun _ =>
    .ask fun s => .ite _ (touches.bind fun _ => rest) rest

end Chronicle

/-! ## Calls -/

open Chronicle in
/-- A watched call tells what the call does. -/
theorem Call.told (c : Call) : Told (fun _ => True) c.watched c.run := by
  have hA : ∀ o : Occasion, o.Scripted → True := fun _ _ => trivial
  have hS : ∀ o : Occasion, o.Starting → True := fun _ _ => trivial
  have advance := told_advanceStart hA hS
  have updated := told_updateBy hA trivial advance (told_runLoops hA fun _ _ _ => trivial)
    (told_deliverTouches hA fun _ _ _ _ => trivial) (told_deliverMessages hA fun _ _ => trivial)
  have script : ∀ c : ScriptCall, Told (fun _ => True) c.watched c.run := by
    intro c
    cases c with
    | start => exact told_start hA hS trivial
    | update => exact .ask fun s => updated _
    | updateBy dt => exact updated dt
    | keyDown raw => exact (told_keyDown hA (fun _ _ _ _ => trivial) raw).discarded
    | pointerDown p => exact (told_pointerDown hA (fun _ _ _ => trivial) p).discarded
    | createClone source => exact (told_createClone hA source).discarded
  cases c with
  | script c => exact .marked trivial (fun _ => .call id) (script c)
  | broadcast message => exact .marked trivial (fun _ => .call id) (told_post hA message)
  | _ => exact .seen trivial fun s => ⟨_, .plain trivial, .refl _⟩

namespace Session

/-- **The moments of all calls are a trace of what the calls do.** -/
theorem trace_chronicle (s : Session) (calls : List Call) :
    Trace (fun _ => True) s (s.chronicle calls) (s.after calls) := by
  induction calls generalizing s with
  | nil => exact .start
  | cons c rest ih => exact (c.told.trace s trivial).trans (ih (c.run.last s))

/-- What holds of fresh sessions and is kept from moment to moment holds between calls. -/
theorem visited_keep {I : Session → Prop} (fresh : ∀ config g budget, I (fresh config g budget))
    (change : ∀ {s t}, Change s t → I s → I t) (effect : ∀ {o s t}, Effect o s t → I s → I t)
    {s : Session} (h : Visited s) : I s := by
  induction h with
  | fresh config g budget => exact fresh config g budget
  | @call s c _ ih => exact (c.told.trace s trivial).keep change (fun _ => effect) ih

/-! ## Traces and courses -/

theorem upkeep_begun (s : Session) : s.Upkeep s.begun :=
  ⟨rfl, s.stage.sameCast_setAllStopped false, fun _ => id, rfl⟩

/-- What is not seen takes a course, whatever hosts may do. -/
theorem Change.course {l : Licence} {s t : Session} (h : Change s t) : Course l s [] t := by
  cases h with
  | feat h => exact .step .start (.deed h.deed)
  | tasks waiting active => exact .step .start (.upkeep (s.upkeep_schedule _))
  | idle h => exact .step .start (.upkeep (s.upkeep_schedule _))
  | queue starts draining => exact .step .start (.queue starts draining)

theorem Feats.course {l : Licence} {s t : Session} (h : Feats s t) : Course l s [] t := by
  induction h with
  | refl => exact .start
  | tail _ feat ih => exact ih.step (.deed feat.deed)

/-- So does what happens once a call has begun. -/
theorem Effect.course_going {l : Licence} {o : Occasion} {s t : Session} (h : Effect o s t)
    (ho : o.Going) : ∃ ids, Course l s ids t := by
  cases h with
  | call | plain | start => exact ho.elim
  | @work _ entity behavior w h => exact ⟨_, (w.feats entity s).course⟩
  | update h => exact ⟨_, .step .start (.deed (.aside ⟨rfl, rfl⟩))⟩
  | launch hr h => exact ⟨_, .step .start (.upkeep (s.upkeep_schedule _))⟩
  | clone source => exact ⟨_, .request .start source⟩
  | post h => exact ⟨_, .step .start (.deed (.aside ⟨rfl, rfl⟩))⟩
  | delivered m handlers => exact ⟨_, .step .start (.deed (.aside (s.aside_emit _ rfl)))⟩
  | opened entity b rest h => exact ⟨_, .step .start (.upkeep (s.upkeep_schedule _))⟩
  | parked t => exact ⟨_, .step .start (.upkeep (s.upkeep_schedule _))⟩
  | fetched h => exact ⟨_, .step .start (.upkeep (s.upkeep_schedule _))⟩
  | complete h =>
    exact ⟨_, .step (.step .start (.upkeep (s.upkeep_schedule _))) (.upkeep (upkeep_finishStart _))⟩
  | _ => exact ⟨_, .start⟩

/-- What happens at a moment takes a course. -/
theorem Effect.course {o : Occasion} {s t : Session} (h : Effect o s t) :
    ∃ ids, Course .full s ids t := by
  cases o with
  | call c =>
    cases h with
    | call h => exact ⟨_, .start⟩
    | plain h => exact course_of_call s c c.within_full
  | start =>
    cases h with
    | start h => exact ⟨_, .step .start (.upkeep s.upkeep_begun)⟩
  | _ => exact h.course_going trivial

/-- **A trace is a course** if what happens at its moments is. -/
theorem Trace.course {l : Licence} {A : Occasion → Prop} {s t : Session} {moments : List Moment}
    (effect : ∀ {o s t}, A o → Effect o s t → ∃ ids, Course l s ids t)
    (h : Trace A s moments t) : ∃ ids, Course l s ids t := by
  induction h with
  | start => exact ⟨[], .start⟩
  | change _ change ih =>
    obtain ⟨ids, course⟩ := ih
    exact ⟨_, course.trans change.course⟩
  | moment _ ho k ih =>
    obtain ⟨ids, course⟩ := ih
    obtain ⟨more, last⟩ := effect ho k
    exact ⟨_, course.trans last⟩

/-- So whatever is stable is kept by a trace. -/
theorem Stable.trace {I : Session → Prop} (hI : Stable .full I) {A : Occasion → Prop}
    {s t : Session} {l : List Moment} (h : Trace A s l t) (hs : I s) : I t := by
  obtain ⟨ids, course⟩ := h.course fun _ k => k.course
  exact hI.course course hs

/-- Once a call has begun, this is so whatever hosts may not do. -/
theorem Stable.going {L : Licence} {I : Session → Prop} (hI : Stable L I) {s t : Session}
    {l : List Moment} (h : Trace Occasion.Going s l t) (hs : I s) : I t := by
  obtain ⟨ids, course⟩ := h.course fun ho k => k.course_going ho
  exact hI.course course hs

end Session

end BlockStage
