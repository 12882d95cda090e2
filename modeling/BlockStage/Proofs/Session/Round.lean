/-
  What every round of the game loop keeps.

  1. **Delivery** — bringing events to behaviors is launching, asking and telling hosts, save that
     the touching phase notes touches.  So it has every such property that launching has
     (`Play.Launching`), and if launching has it only for behaviors of some kind, that is enough as
     long as no others are found.  A round of the game loop ticks, delivers, starts and resumes, and
     has what these four have (`Noting.scriptCall`).

  2. **Upkeep** — the game loop itself starts and stops the session, moves tasks about in the
     scheduler and renews templates.  None of this touches the cast, the variables, the catalogs or
     the queue of clones (`Session.Upkeep`).

  3. Upkeep may be asked for beside tidy acts (`Play.Housekeeping`) or beside all
     (`Play.Thorough`).  If ticking and making a clone have a thorough property, then so have all
     calls that run scripts (`Thorough.scriptCall`).
-/
import BlockStage.Proofs.Session.Script
import BlockStage.Proofs.Stage.Roster

namespace BlockStage

/-- A time that no clock can take is at fault, and takes no steps. -/
theorem Span.ofSeconds_error {x : Float32} {e : Fault} (h : Span.ofSeconds x = .error e) :
    e = .unrepresentableTime := by
  rw [Span.ofSeconds] at h
  split at h
  · split at h
    · exact (Except.error.inj h).symm
    · split at h
      · exact (Except.error.inj h).symm
      · cases h
  · exact (Except.error.inj h).symm

namespace Play

namespace Weaving

variable {P : ∀ {α : Type}, Play α → Prop} (hP : Weaving @P)
include hP

/-! ## Waiting -/

theorem isReady (t : Task) : P (Play.isReady t) := by
  rw [Play.isReady]
  split
  · exact hP.pure true
  · exact hP.pure true
  · exact hP.ask _ fun _ _ => rfl
  · exact hP.bind (hP.evaluate _ _) fun _ => hP.pure _
  · refine hP.bind (hP.ask _ fun _ _ => rfl) fun now => ?_
    exact hP.bind (hP.skilled (Session.skill_place _ _).change) fun _ => hP.pure _
  · exact hP.ask _ fun _ _ => rfl

end Weaving

/-! ## Launching -/

/-- Launching has a property, as long as only behaviors of some kind are launched; and whoever looks
    for behaviors finds only those of the kind. -/
structure Launching (P : ∀ {α : Type}, Play α → Prop) (go : String → Behavior → Play Bool)
    (kind : Behavior → Prop) : Prop where
  launch : ∀ entity b, kind b → P (go entity b)
  look : ∀ {α : Type} {f : Session → Play α}, (∀ s d, f (s.under d) = f s) →
    (∀ s, (∀ id test, ∀ b ∈ s.behaviors id test, kind b) → P (f s)) → P (get >>= f)

/-- All behaviors may be launched. -/
theorem Weaving.launching {P : ∀ {α : Type}, Play α → Prop} (hP : Weaving @P)
    {go : String → Behavior → Play Bool} (hl : ∀ entity b, P (go entity b)) :
    Launching @P go fun _ => True :=
  ⟨fun entity b _ => hl entity b, fun hf h => hP.look hf fun _ => h _ fun _ _ _ _ => trivial⟩

/-- Asking for the behaviors of an entity. -/
theorem Launching.found {P : ∀ {α : Type}, Play α → Prop} {go : String → Behavior → Play Bool}
    {kind : Behavior → Prop} (hl : Launching @P go kind) {α : Type} {f : List Behavior → Play α}
    (id : String) (test : Trigger → Bool) (h : ∀ l, (∀ b ∈ l, kind b) → P (f l)) :
    P (Play.ask (fun s => s.behaviors id test) >>= f) :=
  hl.look (f := fun s => f (s.behaviors id test)) (fun _ _ => rfl) fun _ known => h _ (known id test)

namespace Weaving

variable {P : ∀ {α : Type}, Play α → Prop} (hP : Weaving @P)
include hP

/-! ## Making clones -/

theorem queueClone {source : String} (request : P (changing fun s => s.requestClone source)) :
    P (Play.queueClone source) := hP.discarded request

section
variable {kind : Behavior → Prop} (hl : Launching @P (Play.launchWith Play.queueClone) kind)
  (next : P nextCloneStart) (spent : P (throw .budgetExhausted : Play Unit))
include hl next spent

/-- Working off the queue, within any budget. -/
theorem startClones (budget : Nat) : P (Play.startClones budget) := by
  induction budget with
  | zero => exact spent
  | succ budget ih =>
    refine hP.bind next fun id => ?_
    cases id with
    | none => exact hP.pure ()
    | some id =>
      refine hl.found id _ fun starts known => hP.bind ?_ fun _ => ih
      exact hP.forM _ fun b hb => hP.discarded (hl.launch id b (known b hb))

/-- Making a clone has what asking for one has, and taking it from the queue. -/
theorem createClone {source : String} (request : P (changing fun s => s.requestClone source))
    (look : ∀ {α : Type} {f : Session → Play α}, (∀ s, P (f s)) → P (get >>= f))
    (drain : ∀ draining, P (Play.change fun s => { s with draining := draining })) :
    P (Play.createClone source) := by
  refine hP.bind request fun made => ?_
  cases made with
  | error e => exact hP.pure _
  | ok id =>
    refine hP.bind (look fun s => Tidying.ite _ ?_ (hP.pure ())) fun _ => hP.pure _
    exact hP.bind (drain true) fun _ =>
      hP.bind (hP.startClones hl next spent _) fun _ => drain false

end

end Weaving

namespace Telling

variable {P : ∀ {α : Type}, Play α → Prop} (hP : Telling @P)
include hP

/-! ## Single steps of a round -/

theorem countPhase (name : String) : P (Play.countPhase name) :=
  hP.skilled ⟨fun s => .one (.stage (s.stage.calm_record name)), fun _ _ => rfl,
    fun _ => ⟨rfl, .refl _⟩⟩

theorem takeInbox : P Play.takeInbox :=
  hP.tell (fun _ => ⟨rfl, rfl⟩) (fun _ _ => rfl) fun _ => ⟨rfl, .refl _⟩

theorem stepPhysics (dt : Float32) : P (Play.change fun s => s.stepPhysics dt) :=
  hP.skilled (Session.skill_stepPhysics dt)

/-! ## Delivery -/

variable {kind : Behavior → Prop} (hl : Launching @P Play.launch kind)
include hl

theorem launchEach (entity : String) (l : List Behavior) (hb : ∀ b ∈ l, kind b) :
    P (Play.launchEach entity l) := by
  induction l with
  | nil => exact hP.pure 0
  | cons b rest ih =>
    obtain ⟨first, hb⟩ := List.forall_mem_cons.mp hb
    refine hP.bind (hP.ask _ fun _ _ => rfl) fun live => ?_
    have others : ∀ launched : Bool, P (do
        let others ← Play.launchEach entity rest
        return (if launched then 1 else 0) + others) :=
      fun launched => hP.bind (ih hb) fun _ => hP.pure _
    cases live with
    | true => exact hP.bind (hl.launch entity b first) others
    | false => exact hP.bind (hP.pure false) others

theorem launchAll (test : Trigger → Bool) (ids : List String) : P (Play.launchAll test ids) := by
  induction ids with
  | nil => exact hP.pure ()
  | cons id rest ih =>
    exact hl.found id test fun l hb =>
      hP.bind (hP.discarded (hP.launchEach hl id l hb)) fun _ => ih

theorem runLoops : P Play.runLoops := by
  refine hP.look (fun _ _ => rfl) fun s => ?_
  exact Tidying.ite _ (hP.launchAll hl _ _) (hP.pure ())

theorem fireOnce (id : String) {b : Behavior} (hb : kind b) (fired : Fired) :
    P (Play.fireOnce id b fired) := by
  rw [Play.fireOnce]
  split
  · exact hP.pure _
  · exact hP.bind (hP.discarded (hl.launch id b hb)) fun _ => hP.pure _

theorem deliverSide (id : String) (viewer other : Handle) (l : List Behavior)
    (hb : ∀ b ∈ l, kind b) (fired : Fired) : P (Play.deliverSide id viewer other l fired) := by
  induction l generalizing fired with
  | nil => exact hP.pure _
  | cons b rest ih =>
    obtain ⟨first, hb⟩ := List.forall_mem_cons.mp hb
    refine hP.look (fun _ _ => rfl) fun s => ?_
    exact Tidying.ite _ (hP.bind (hP.fireOnce hl id first fired) (ih hb))
      (hP.bind (hP.pure fired) (ih hb))

theorem deliverWorld (id : String) (h : Handle) (l : List Behavior) (hb : ∀ b ∈ l, kind b)
    (fired : Fired) : P (Play.deliverWorld id h l fired) := by
  induction l generalizing fired with
  | nil => exact hP.pure _
  | cons b rest ih =>
    obtain ⟨first, hb⟩ := List.forall_mem_cons.mp hb
    refine hP.look (fun _ _ => rfl) fun s => Tidying.ite _ (hP.pure fired) ?_
    exact Tidying.ite _ (hP.bind (hP.fireOnce hl id first fired) (ih hb))
      (hP.bind (hP.pure fired) (ih hb))

theorem deliverWorlds (l : List (String × Handle)) (fired : Fired) :
    P (Play.deliverWorlds l fired) := by
  induction l generalizing fired with
  | nil => exact hP.pure ()
  | cons e rest ih =>
    exact hl.found e.1 _ fun behaviors hb => hP.bind (hP.deliverWorld hl _ _ _ hb _) ih

theorem handleEach (entity : String) (l : List Behavior) (hb : ∀ b ∈ l, kind b) (handlers : Nat) :
    P (Play.handleEach entity l handlers) := by
  induction l generalizing handlers with
  | nil => exact hP.pure _
  | cons b rest ih =>
    obtain ⟨first, hb⟩ := List.forall_mem_cons.mp hb
    refine hP.look (fun _ _ => rfl) fun s => Tidying.ite _ (hP.pure none) ?_
    have rest : ∀ launched : Bool,
        P (Play.handleEach entity rest (if launched then handlers + 1 else handlers)) :=
      fun launched => ih hb _
    exact Tidying.ite _ (hP.bind (hl.launch entity b first) rest) (hP.bind (hP.pure false) rest)

theorem handleMessage (message : String) (ids : List String) (handlers : Nat) :
    P (Play.handleMessage message ids handlers) := by
  induction ids generalizing handlers with
  | nil => exact hP.pure _
  | cons id rest ih =>
    refine hl.found id _ fun behaviors hb => hP.bind (hP.handleEach hl _ _ hb _) fun handled => ?_
    cases handled with
    | none => exact hP.pure none
    | some handlers => exact ih handlers

theorem deliverMessages (l : List String) : P (Play.deliverMessages l) := by
  induction l with
  | nil => exact hP.pure ()
  | cons m rest ih =>
    refine hP.bind (hP.ask _ fun _ _ => rfl) fun listeners =>
      hP.bind (hP.handleMessage hl _ _ _) fun handled => ?_
    cases handled with
    | none => exact hP.pure ()
    | some handlers =>
      exact hP.bind (hP.tell (fun s => s.aside_emit _ rfl) (fun _ _ => rfl) fun s =>
        s.spares_emit _ rfl) fun _ => ih

theorem keyDown (raw : String) : P (Play.keyDown raw) := by
  rw [Play.keyDown]
  cases Key.parse? raw with
  | none => exact hP.pure false
  | some key =>
    refine hP.bind (hP.tell (fun _ => ⟨rfl, rfl⟩) (fun _ _ => rfl) fun _ => ⟨rfl, .refl _⟩)
      fun _ => ?_
    refine hP.look (fun _ _ => rfl) fun s => ?_
    exact Tidying.ite _ (hP.bind (hP.launchAll hl _ _) fun _ => hP.pure true) (hP.pure true)

theorem pointerDown (p : Vec Float32) : P (Play.pointerDown p) := by
  refine hP.bind (hP.tell (fun _ => ⟨rfl, rfl⟩) (fun _ _ => rfl) fun _ => ⟨rfl, .refl _⟩)
    fun _ => ?_
  refine hl.look (fun _ _ => rfl) fun s known => Tidying.ite _ (hP.pure none) ?_
  cases topmost? s p with
  | none => exact hP.pure none
  | some top =>
    obtain ⟨depth, id⟩ := top
    exact hP.bind (hP.discarded (hP.launchEach hl _ _ (known id _))) fun _ => hP.pure _

end Telling

namespace Noting

variable {P : ∀ {α : Type}, Play α → Prop} (hP : Noting @P)
include hP

/-! ## Touching -/

variable {kind : Behavior → Prop} (hl : Launching @P Play.launch kind)
include hl

theorem deliverPairs (l : List ((String × Handle) × (String × Handle))) (fired : Fired) :
    P (Play.deliverPairs l fired) := by
  induction l generalizing fired with
  | nil => exact hP.pure _
  | cons pair rest ih =>
    obtain ⟨a, b⟩ := pair
    refine hP.look (fun _ _ => rfl) fun s => ?_
    refine Tidying.ite _ (hP.pure none) (Tidying.ite _ (ih fired) ?_)
    refine hP.bind (hP.note (fun s => ?_) (fun s d => ?_) (fun s => ?_) fun s => ?_) fun _ =>
      hl.found a.1 _ fun ofA hA => hP.bind (hP.deliverSide hl _ _ _ _ hA _) fun fired =>
      hl.found b.1 _ fun ofB hB => hP.bind (hP.deliverSide hl _ _ _ _ hB _) ih
    · dsimp only
      split
      · exact ⟨rfl, rfl⟩
      · exact ⟨rfl, Session.passages_emit _ _ rfl⟩
    · refine Prod.ext rfl ?_
      symm
      exact apply_ite (Session.under · d) _ _ _
    · dsimp only
      split <;> rfl
    · dsimp only
      split <;> exact .refl _

theorem deliverTouches : P Play.deliverTouches := by
  have forget : P (Play.change fun s => { s with touchingBefore := [] }) :=
    hP.note (fun _ => ⟨rfl, rfl⟩) (fun _ _ => rfl) (fun _ => rfl) fun _ => .refl _
  have remember : P (Play.change fun s => { s with touchingBefore := s.touching }) :=
    hP.note (fun _ => ⟨rfl, rfl⟩) (fun _ _ => rfl) (fun _ => rfl) fun _ => .refl _
  refine hP.bind (hP.note (fun _ => ⟨rfl, rfl⟩) (fun _ _ => rfl) (fun _ => rfl) fun _ => .refl _)
    fun _ => ?_
  refine hP.look (fun _ _ => rfl) fun s => Tidying.ite _ forget ?_
  refine hP.bind (hP.deliverPairs hl _ _) fun fired => ?_
  cases fired with
  | none => exact hP.pure ()
  | some fired => exact hP.bind (hP.deliverWorlds hl _ _) fun _ => remember

/-- The second half of a round, which is run whether or not touches are delivered. -/
theorem deliveries (inbox : List String) : P (do
    if ← Play.ask Session.running then Play.deliverTouches
    Play.countPhase "touching"
    if ← Play.ask Session.running then Play.deliverMessages inbox
    Play.countPhase "messages") := by
  have running : P (Play.ask Session.running) := hP.ask _ fun _ _ => rfl
  refine hP.bind running fun touches => ?_
  have messages : P (do
      Play.countPhase "touching"
      if ← Play.ask Session.running then Play.deliverMessages inbox
      Play.countPhase "messages") := by
    refine hP.bind (hP.countPhase _) fun _ => hP.bind running fun delivers => ?_
    cases delivers with
    | true => exact hP.bind (hP.deliverMessages hl inbox) fun _ => hP.countPhase _
    | false => exact hP.countPhase _
  cases touches with
  | true => exact hP.bind (hP.deliverTouches hl) fun _ => messages
  | false => exact messages

/-! ## Rounds -/

section
variable (advance : P Play.advanceStart) (resume : P Play.resumeAll)
include advance resume

/-- A round has what its parts have. -/
theorem updateBy {dt : Float32} (tick : P (Play.tick (Single.max dt 0))) :
    P (Play.updateBy dt) := by
  refine hP.bind (hP.ask _ fun _ _ => rfl) fun _ => Tidying.ite _ ?_ (hP.pure ())
  exact hP.bind hP.takeInbox fun inbox => hP.bind tick fun _ => hP.bind (hP.stepPhysics _) fun _ =>
    hP.bind (hP.countPhase _) fun _ => hP.bind advance fun _ =>
    hP.bind resume fun _ => hP.bind (hP.countPhase _) fun _ =>
    hP.bind (hP.runLoops hl) fun _ => hP.bind (hP.countPhase _) fun _ => hP.deliveries hl inbox

/-- A call that runs scripts has what ticking, starting, launching and making clones have. -/
theorem scriptCall (tick : ∀ dt, P (Play.tick dt)) (start : P Play.start)
    (create : ∀ source, P (Play.createClone source)) (c : ScriptCall) : P c.run := by
  cases c with
  | start => exact start
  | update =>
    exact hP.bind (hP.ask _ fun _ _ => rfl) fun dt => hP.updateBy hl advance resume (tick _)
  | updateBy dt => exact hP.updateBy hl advance resume (tick _)
  | keyDown raw => exact hP.discarded (hP.keyDown hl raw)
  | pointerDown p => exact hP.discarded (hP.pointerDown hl p)
  | createClone source => exact hP.discarded (create source)

end

end Noting

/-- Ticking is an attempt. -/
theorem Trying.tick {P : ∀ {α : Type}, Play α → Prop} (hP : Trying @P) (dt : Float32) :
    P (Play.tick dt) := by
  rw [Play.tick]
  split
  · exact hP.closed.change
      (Session.tidy_aside _ (fun _ => ⟨rfl, rfl⟩) (fun _ _ => rfl) fun _ => ⟨rfl, .refl _⟩)
  · rename_i fault hf
    refine hP.fault fun h => ?_
    subst h
    cases Span.ofSeconds_error hf

end Play

/-! ## Upkeep -/

/-- Nothing that lasts has changed but the stage, whose cast is the same, and templates, none of
    which is gone: no variable, no catalog and no part of the queue of clones. -/
structure Session.Upkeep (s t : Session) : Prop where
  rest : t =
    { s.withAside t with
      running := t.running
      stage := t.stage
      templates := t.templates
      scheduler := t.scheduler
      loopsActive := t.loopsActive }
  stage : s.stage.SameCast t.stage
  templates : ∀ id, s.templates.contains id = true → t.templates.contains id = true
  passages : t.passages = s.passages

theorem Session.Upkeep.deletions {s t : Session} (h : s.Upkeep t) : t.deletions = s.deletions := by
  rw [deletions_eq, deletions_eq, h.passages]

theorem Session.upkeep_schedule (s : Session) (q : Scheduler) :
    s.Upkeep { s with scheduler := q } := ⟨rfl, .refl _, fun _ => id, rfl⟩

namespace Play

theorem renewTemplate_eq (s : Session) (id : String) :
    renewTemplate s id = { s with templates := (renewTemplate s id).templates } := by
  rw [renewTemplate]
  split <;> rfl

/-- Renewing a template takes none away. -/
theorem contains_renewTemplate (s : Session) (id : String) {j : String}
    (h : s.templates.contains j = true) : (renewTemplate s id).templates.contains j = true := by
  rw [renewTemplate]
  split
  · show (s.templates.insert id _).contains j = true
    rw [Table.contains_insert, h, Bool.or_true]
  · exact h

/-- Renewing templates changes nothing else. -/
theorem foldl_renewTemplate (ids : List String) (s : Session) :
    ids.foldl renewTemplate s
      = { s with templates := (ids.foldl renewTemplate s).templates } := by
  induction ids generalizing s with
  | nil => rfl
  | cons id ids ih => rw [List.foldl_cons, ih (renewTemplate s id), renewTemplate_eq s id]

theorem contains_foldl_renewTemplate (ids : List String) (s : Session) {j : String}
    (h : s.templates.contains j = true) :
    (ids.foldl renewTemplate s).templates.contains j = true := by
  induction ids generalizing s with
  | nil => exact h
  | cons id ids ih => exact ih _ (contains_renewTemplate s id h)

theorem renewTemplate_under (s : Session) (d : Session.Disguise) (id : String) :
    renewTemplate (s.under d) id = (renewTemplate s id).under d := by
  simp only [renewTemplate, Session.templates_under, Session.catalogs_under]
  split <;> rfl

theorem foldl_renewTemplate_under (ids : List String) (s : Session) (d : Session.Disguise) :
    ids.foldl renewTemplate (s.under d) = (ids.foldl renewTemplate s).under d := by
  induction ids generalizing s with
  | nil => rfl
  | cons id ids ih => rw [List.foldl_cons, List.foldl_cons, renewTemplate_under, ih]

/-- The end of the start phase has nothing to do with tasks. -/
theorem apart_finishStart : Session.Apart fun s => ((), finishStart s) := by
  intro s d
  refine Prod.ext rfl ?_
  show finishStart (s.under d) = (finishStart s).under d
  rw [finishStart, finishStart]
  exact congrArg (fun t => Session.note { t with loopsActive := true } .info _)
    (foldl_renewTemplate_under _ s d)

end Play

theorem Play.spares_finishStart (s : Session) : s.Spares (finishStart s) := by
  rw [finishStart, foldl_renewTemplate]
  exact ⟨rfl, .refl _⟩

theorem Session.upkeep_finishStart (s : Session) : s.Upkeep (Play.finishStart s) := by
  have kept := fun id => Play.contains_foldl_renewTemplate
    (s.stage.ids.filter fun id => !s.isClone id) s (j := id)
  rw [Play.finishStart]
  refine ⟨?_, ?_, kept, ?_⟩ <;> rw [Play.foldl_renewTemplate]
  · rfl
  · exact .refl _
  · rfl

namespace Play

/-- A property of tidy acts that upkeep has. -/
structure Housekeeping (P : ∀ {α : Type}, Play α → Prop) : Prop extends Tidying @P where
  upkeep : ∀ {α : Type} {f : Session → α × Session}, (∀ s, Session.Upkeep s (f s).2) →
    Session.Blind f → (∀ s : Session, s.Spares (f s).2) → P (changing f)

/-- A closed property that upkeep has. -/
structure Thorough (P : ∀ {α : Type}, Play α → Prop) : Prop extends Closed @P, Housekeeping @P

namespace Housekeeping

variable {P : ∀ {α : Type}, Play α → Prop} (hP : Housekeeping @P)
include hP

theorem schedule (f : Scheduler → Scheduler) : P (Play.schedule f) :=
  hP.upkeep (f := fun s => ((), { s with scheduler := f s.scheduler }))
    (fun s => s.upkeep_schedule _) (fun _ _ => rfl) fun _ => ⟨rfl, .refl _⟩

/-- Looking at the session, also at its tasks. -/
theorem inspect {α : Type} {f : Session → Play α} (hf : ∀ s n, f (s.withBudget n) = f s)
    (hp : ∀ s, P (f s)) : P (get >>= f) := by
  refine hP.look_of_ask (hP.upkeep (f := fun s => (f s, s)) (fun s => ?_) (fun s n => ?_)
    fun s => .refl s) hp
  · exact s.upkeep_schedule s.scheduler
  · dsimp only
    rw [hf]

/-- Launching has what making a clone has. -/
theorem launchWith {clone : String → Play Unit} (hc : ∀ source, P (clone source)) (entity : String)
    (b : Behavior) : P (Play.launchWith clone entity b) := by
  refine hP.inspect (fun _ _ => rfl) fun s => Tidying.ite _ (hP.pure false) ?_
  refine hP.bind (hP.schedule _) fun _ => hP.bind (hP.runSlice hc _) fun left => ?_
  cases left with
  | some t => exact hP.bind (hP.schedule _) fun _ => hP.pure true
  | none => exact hP.bind (hP.schedule _) fun _ => hP.pure true

/-! ## Tasks -/

section
variable (hc : ∀ source, P (Play.makeClone source))
include hc

theorem resume (t : Task) : P (Play.resume t) := by
  refine hP.bind (hP.ask _ fun _ _ => rfl) fun may => ?_
  cases may with
  | false => exact hP.bind (hP.schedule _) fun _ => hP.pure none
  | true =>
    refine hP.bind (hP.isReady t) fun ready => ?_
    cases ready with
    | false => exact hP.pure _
    | true =>
      refine hP.bind (hP.runSlice hc t) fun left => ?_
      cases left with
      | some t => exact hP.pure _
      | none => exact hP.bind (hP.schedule _) fun _ => hP.pure none

theorem resumeEach (l : List Task) : P (Play.resumeEach l) := by
  induction l with
  | nil => exact hP.pure _
  | cons t rest ih =>
    exact hP.bind (hP.resume hc t) fun _ => hP.bind ih fun _ => hP.pure _

theorem resumeAll : P Play.resumeAll := by
  have taken : P Play.takeWaiting :=
    hP.upkeep (fun s => s.upkeep_schedule _) (fun _ _ => rfl) fun _ => ⟨rfl, .refl _⟩
  refine hP.bind taken fun waiting => hP.bind (hP.resumeEach hc waiting) fun still =>
    hP.bind (hP.ask _ fun _ _ => rfl) fun running => ?_
  exact Tidying.ite _ (hP.schedule _) (hP.pure ())

theorem runStarts (l : List (String × Behavior)) : P (Play.runStarts l) := by
  induction l with
  | nil =>
    refine hP.bind (hP.ask _ fun _ _ => rfl) fun running => Tidying.ite _ ?_ (hP.schedule _)
    refine hP.bind (hP.schedule _) fun _ => ?_
    exact hP.upkeep (fun s => s.upkeep_finishStart) apart_finishStart.blind spares_finishStart
  | cons e rest ih =>
    obtain ⟨entity, b⟩ := e
    refine hP.bind (hP.ask _ fun _ _ => rfl) fun running => Tidying.ite _ ?_ (hP.schedule _)
    refine hP.bind (hP.schedule _) fun _ => hP.bind (hP.runSlice hc _) fun left => ?_
    cases left with
    | some t => exact hP.schedule _
    | none => exact ih

theorem continueStart (t : Task) (rest : List (String × Behavior)) :
    P (Play.continueStart t rest) := by
  refine hP.bind (hP.runSlice hc t) fun left => ?_
  cases left with
  | some t => exact hP.schedule _
  | none => exact hP.runStarts hc _

theorem advanceStart : P Play.advanceStart := by
  refine hP.inspect (fun _ _ => rfl) fun s =>
    Tidying.ite _ (hP.pure ()) (Tidying.ite _ (hP.schedule _) ?_)
  cases s.scheduler.startTask with
  | none => exact hP.runStarts hc _
  | some t =>
    -- whether the start script waits is known only after looking at what it waits for
    have go : ∀ waits : Bool, P (if waits then Play.schedule fun q => { q with startTask := some t }
        else Play.continueStart t s.scheduler.startQueue) :=
      fun waits => Tidying.ite _ (hP.schedule _) (hP.continueStart hc t _)
    refine hP.bind (hP.schedule _) fun _ => Tidying.ite _ ?_ (hP.bind (hP.pure false) go)
    exact hP.bind (hP.bind (hP.isReady t) fun _ => hP.pure _) go

/-! ## Rounds -/

theorem start : P Play.start := by
  refine hP.bind (hP.ask _ fun _ _ => rfl) fun running =>
    Tidying.ite _ (hP.change (Session.skill_note _ _).tidy) ?_
  have begun : P (Play.change fun s =>
      { s with
        running := true
        stage := s.stage.setAllStopped false
        loopsActive := false
        clock := s.clock.resetTimer
        journalShared := true }) :=
    hP.upkeep (fun s => ⟨rfl, s.stage.sameCast_setAllStopped false, fun _ => id, rfl⟩)
      (fun _ _ => rfl) fun _ => ⟨rfl, .refl _⟩
  refine hP.bind begun fun _ => ?_
  refine hP.inspect (fun _ _ => rfl) fun s => ?_
  exact hP.bind (hP.change (Session.skill_note _ _).tidy) fun _ => hP.bind (hP.schedule _) fun _ =>
    hP.advanceStart hc

end

/-! ## Making clones -/

/-- Making a clone has what asking for one has, and taking it from the queue. -/
theorem createClone (request : ∀ source, P (changing fun s => s.requestClone source))
    (next : P nextCloneStart) (spent : P (throw .budgetExhausted : Play Unit))
    (look : ∀ {α : Type} {f : Session → Play α}, (∀ s, P (f s)) → P (get >>= f))
    (drain : ∀ draining, P (Play.change fun s => { s with draining := draining }))
    (source : String) : P (Play.createClone source) :=
  hP.toWeaving.createClone
    (hP.launching (hP.launchWith fun source => hP.queueClone (request source))) next spent
    (request source) look drain

end Housekeeping

/-- If ticking and making a clone have a thorough property, then so have all calls that run
    scripts. -/
theorem Thorough.scriptCall {P : ∀ {α : Type}, Play α → Prop} (hP : Thorough @P)
    (tick : ∀ dt, P (Play.tick dt)) (hc : ∀ source, P (Play.createClone source))
    (c : ScriptCall) : P c.run := by
  have made : ∀ source, P (Play.makeClone source) := fun source => hP.discarded (hc source)
  exact hP.noting.scriptCall (hP.launching (hP.launchWith made)) (hP.advanceStart made)
    (hP.resumeAll made) tick (hP.start made) hc c

end Play

end BlockStage
