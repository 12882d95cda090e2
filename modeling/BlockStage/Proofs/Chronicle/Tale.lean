/-
  Tales: a relation between sessions that is put together step by step along a call.

  1. **Specification (`Chronicle.Tale`)** — a relation between two sessions and the moments that have
     passed between them that scripts bear out: it goes through sequencing, feats bear it out, and
     moments on occasions of some kind.  A call bears it out if the game loop does as well
     (`Chronicle.Saga`).

  2. **Rules (`Chronicle.Follows`)** — a step that returns follows a relation if the session before,
     the moments and the session after are so related.  A trace says this of steps that break off,
     too; but what is said of a queue that is worked off holds only when that is done.

  3. **The parameter** — how clones are made is left open.  So the same lemmas speak of scripts that
     only queue clones, one moment after the other, and of all others, for which making a clone and
     working off the queue is one step (`Saga.script`).
-/
import BlockStage.Proofs.Chronicle.Contract
import BlockStage.Proofs.Chronicle.Faithful
import BlockStage.Proofs.Chronicle.Yields

namespace BlockStage

open Session (Effect Feat Feats)

/-- What is seen in a call, save its beginning, requests for clones and the launches of their start
    scripts. -/
def Occasion.Ordinary : Occasion → Prop
  | .call _ => False
  | .start => False
  | .clone _ => False
  | .launch _ b => Play.startsClone b.trigger = false
  | _ => True

theorem Occasion.Ordinary.going {o : Occasion} (h : o.Ordinary) : o.Going := by
  cases o with
  | call | start => exact h.elim
  | _ => exact trivial

namespace Chronicle

variable {α β : Type}

/-! ## Tales -/

/-- A relation between sessions and what has passed between them that scripts bear out, as long as
    they are seen on occasions of some kind. -/
structure Tale (A : Occasion → Prop) (R : Session → List Moment → Session → Prop) : Prop where
  start : ∀ s, R s [] s
  trans : ∀ {s t u l m}, R s l t → R t m u → R s (l ++ m) u
  feat : ∀ {s t}, Feat s t → R s [] t
  moment : ∀ {o s t}, A o → Effect o s t → R s [⟨o, s⟩] t

/-- Such a relation that all ordinary moments of a call and the moving of tasks bear out. -/
structure Saga (R : Session → List Moment → Session → Prop) : Prop
    extends Tale Occasion.Ordinary R where
  tasks : ∀ (s : Session) waiting active,
    R s [] { s with scheduler := { s.scheduler with waiting := waiting, active := active } }
  idle : ∀ s : Session, s.running = false → R s [] { s with scheduler := .idle }

/-- From every session with a property, a step that returns leads to one that is related to it by
    what has passed, and another property holds then. -/
def Follows (R : Session → List Moment → Session → Prop) (pre : Session → Prop) (c : Chronicle α)
    (post : α → Session → Prop) : Prop :=
  ∀ s, pre s → Yields c s fun a t l => R s l t ∧ post a t

/-- A step follows a relation, whatever the session is like. -/
abbrev Obeys (R : Session → List Moment → Session → Prop) (c : Chronicle α) : Prop :=
  Follows R (fun _ => True) c fun _ _ => True

theorem Obeys.of {R : Session → List Moment → Session → Prop} {c : Chronicle α}
    {pre : Session → Prop} (h : Obeys R c) : Follows R pre c fun _ _ => True :=
  fun s _ => h s trivial

/-- What a step that obeys yields. -/
theorem Obeys.yields {R : Session → List Moment → Session → Prop} {c : Chronicle α} (h : Obeys R c)
    (s : Session) : Yields c s fun _ t l => R s l t := (h s trivial).mono fun _ _ _ h => h.1

namespace Tale

variable {A : Occasion → Prop} {R : Session → List Moment → Session → Prop} (hR : Tale A R)
  {pre pre' : Session → Prop} {m post post' : α → Session → Prop} {last : β → Session → Prop}
  {c c' : Chronicle α} {p : Play α} {f : α → Chronicle β}
include hR

theorem feats {s t : Session} (h : Feats s t) : R s [] t := by
  induction h with
  | refl => exact hR.start s
  | tail _ k ih => exact hR.trans ih (hR.feat k)

/-! ## Rules -/

theorem bind (hc : Follows R pre c m) (hf : ∀ a, Follows R (m a) (f a) last) :
    Follows R pre (c >>= f) last := by
  intro s hs
  refine (hc s hs).bind fun a t l h => ?_
  exact (hf a t h.2).mono fun b u k hk => ⟨hR.trans h.1 hk.1, hk.2⟩

omit hR in
theorem weaken (h : Follows R pre c post) (hpre : ∀ s, pre' s → pre s)
    (hpost : ∀ a t, post a t → post' a t) : Follows R pre' c post' :=
  fun s hs => (h s (hpre s hs)).mono fun a t _ k => ⟨k.1, hpost a t k.2⟩

theorem pure (a : α) : Follows R pre (Pure.pure a) fun _ _ => True :=
  fun s _ => .pure ⟨hR.start s, trivial⟩

theorem contract : Contract (@fun _ => Follows R) := ⟨hR.bind, weaken, hR.pure⟩

omit hR in
/-- A step of which nothing is seen. -/
theorem silent (h : ∀ s, pre s → R s [] (p.last s))
    (after : ∀ s a t, pre s → p s = .ok a t → post a t) : Follows R pre (liftM p) post := by
  intro s hs a t ha
  have same : p.last s = t := Play.last_of_ok ha
  exact ⟨same ▸ h s hs, after s a t hs ha⟩

theorem skilled (h : ∀ s, Feats s (p.last s)) : Follows R pre (liftM p) fun _ _ => True :=
  silent (fun s _ => hR.feats (h s)) fun _ _ _ _ _ => trivial

/-- A step that is seen: first the occasion has its effect, and then follows what is not seen. -/
theorem seen {o : Occasion} (ho : A o) (h : ∀ s, pre s → ∃ t, Effect o s t ∧ Feats t (p.last s))
    (after : ∀ s a t, pre s → p s = .ok a t → post a t) :
    Follows R pre (Chronicle.seen o p) post := by
  intro s hs a t ha
  have same : p.last s = t := Play.last_of_ok ha
  obtain ⟨u, effect, feats⟩ := h s hs
  exact ⟨hR.trans (hR.moment ho effect) (same ▸ hR.feats feats), after s a t hs ha⟩

/-- A mark adds a moment and does nothing. -/
theorem marked {o : Occasion} (ho : A o) (h : ∀ s, pre s → Effect o s s)
    (hc : Follows R pre c post) : Follows R pre (do mark o; c) post := by
  intro s hs
  exact .marked ((hc s hs).mono fun _ _ _ k => ⟨hR.trans (hR.moment ho (h s hs)) k.1, k.2⟩)

omit hR in
/-- Looking at the session. -/
theorem look {f : Session → Chronicle α} (h : ∀ s, Follows R (fun t => t = s ∧ pre s) (f s) post) :
    Follows R pre (get >>= f) post := fun s hs => .look (h s s ⟨rfl, hs⟩)

omit hR in
/-- Asking the session. -/
theorem ask {q : Session → β} {f : β → Chronicle α}
    (h : ∀ s, Follows R (fun t => t = s ∧ pre s) (f (q s)) post) :
    Follows R pre ((liftM (Play.ask q) : Chronicle β) >>= f) post :=
  fun s hs => .ask (h s s ⟨rfl, hs⟩)

omit hR in
theorem ite (q : Prop) [Decidable q] (h : q → Follows R pre c post)
    (h' : ¬q → Follows R pre c' post) : Follows R pre (if q then c else c') post := by
  split
  · exact h ‹_›
  · exact h' ‹_›

theorem discarded (h : Follows R pre c fun _ _ => True) :
    Follows R pre (discard c : Chronicle Unit) fun _ _ => True := hR.bind h fun _ => hR.pure ()

/-! ## Scripts -/

theorem posted (message : String) (h : ∀ m, A (.post m)) :
    Follows R pre (Chronicle.post message) fun _ _ => True := by
  rw [Chronicle.post]
  split
  · rename_i blank
    refine hR.skilled fun s => ?_
    have same : s.broadcast message = s := if_pos blank
    rw [Play.last_change, same]
    exact .refl s
  · rename_i named
    refine hR.seen (h _) (fun s _ => ⟨_, .post named, ?_⟩) fun _ _ _ _ _ => trivial
    have same : s.broadcast message = { s with inbox := s.inbox ++ [trimText message] }.note .event
        ("broadcast " ++ trimText message) := if_neg named
    rw [Play.last_change, same]
    exact .refl _

section
variable {clone : String → Chronicle Unit} (hc : ∀ source, Obeys R (clone source))
  (posts : ∀ m, A (.post m))
include hc posts

/-- An action follows what making a clone follows. -/
theorem perform {entity : String} {behavior : Nat} (works : ∀ w, A (.work entity behavior w))
    (a : Action) :
    Follows R (fun s => s.mayRun entity = true) (perform clone entity behavior a)
      fun _ _ => True := by
  have text : ∀ e, Obeys R (liftM (Play.text entity e)) :=
    fun e => hR.skilled fun s => (Play.weaving_tricks.text entity e s).feats
  -- an action that neither makes a clone nor queues a message is done at once
  have done : ∀ {f : Play Flow}, (∀ s, a.outcome entity s = f.last s) →
      Follows R (fun s => s.mayRun entity = true)
        (Chronicle.seen (.work entity behavior (.act a)) f) fun _ _ => True := by
    intro f same
    refine hR.seen (works _) (fun s may => ⟨_, .work may, ?_⟩) fun _ _ _ _ _ => trivial
    exact same s ▸ .refl _
  cases a with
  | createClone source =>
    refine hR.marked (works _) (fun s may => .work may) ?_
    exact hR.bind (text source).of fun raw => hR.bind (hc _) fun _ => hR.pure _
  | broadcast message =>
    refine hR.marked (works _) (fun s may => .work may) ?_
    refine hR.bind (text message).of fun m => ite _ (fun _ => hR.skilled fun s => ?_) fun _ => ?_
    · exact (Play.weaving_tricks.complain _ _ _ s).feats
    · exact hR.bind (hR.posted m posts) fun _ => hR.pure _
  | _ => exact done fun _ => rfl

theorem host {entity : String} {behavior : Nat} (works : ∀ w, A (.work entity behavior w)) :
    Host.Bound (@fun _ => Follows R) (fun s => s.mayRun entity = true)
      (host clone entity behavior) where
  alive := by
    intro s _ going t h
    rw [alive_host] at h ⊢
    obtain ⟨rfl, rfl⟩ := EStateM.Result.ok.inj h
    refine ⟨?_, id⟩
    dsimp only
    split
    · rename_i may
      exact hR.moment (works _) (.work may)
    · exact hR.start s
  eval e := by
    refine hR.seen (works _) (fun s may => ⟨s, .work may, ?_⟩) fun s v t may h => ?_
    · exact (Play.weaving_tricks.evaluate entity e s).feats
    · obtain ⟨-, rfl⟩ := EStateM.Result.ok.inj h
      exact may
  perform := hR.perform hc posts works
  count name i := by
    refine hR.seen (works _) (fun s may => ⟨s, .work may, ?_⟩) fun _ _ _ _ _ => trivial
    exact (Session.skill_setVariable entity name _).change.feats s
  addLoop loop body := by
    refine hR.seen (works _) (fun s may => ⟨s, .work may, ?_⟩) fun _ _ _ _ _ => trivial
    exact Session.feats_addLoop entity loop body s
  report message := hR.skilled (Session.skill_note _ _).feats

theorem slice (t : Task) (works : ∀ w, A (.work t.entity t.behavior w)) :
    Obeys R (slice clone t) := by
  refine hR.bind (Host.Bound.run hR.contract (hR.host hc posts works) t.frames) fun r => ?_
  cases r <;> exact hR.pure _

end

end Tale

/-! ## Tasks -/

namespace Saga

variable {R : Session → List Moment → Session → Prop} (hR : Saga R) {pre : Session → Prop}
include hR

/-- A change of the tasks that wait and of the behaviors that are under way. -/
theorem moved {f : Scheduler → Scheduler}
    (h : ∀ q, f q = { q with waiting := (f q).waiting, active := (f q).active }) :
    Follows R pre (liftM (Play.schedule f)) fun _ _ => True := by
  refine Tale.silent (fun s _ => ?_) fun _ _ _ _ _ => trivial
  show R s [] { s with scheduler := f s.scheduler }
  rw [h s.scheduler]
  exact hR.tasks s _ _

/-- An idle session drops its tasks. -/
theorem dropped : Follows R (fun s => s.running = false)
    (liftM (Play.schedule fun _ => .idle)) fun _ _ => True :=
  Tale.silent hR.idle fun _ _ _ _ _ => trivial

/-- A task is looked at while its entity may run. -/
theorem look (t : Task) : Follows R (fun s => s.mayRun t.entity = true) (look t) fun _ _ => True :=
  hR.seen trivial (fun s may => ⟨s, .work may, (Play.weaving_tricks.isReady t s).feats⟩)
    fun _ _ _ _ _ => trivial

theorem park (t : Task) : Follows R pre (park t) fun _ _ => True :=
  hR.seen trivial (fun _ _ => ⟨_, .parked t, .refl _⟩) fun _ _ _ _ _ => trivial

variable (hc : ∀ source, Obeys R (makeClone source))
include hc

theorem slice (t : Task) : Obeys R (slice makeClone t) :=
  hR.toTale.slice hc (fun _ => trivial) t fun _ => trivial

theorem launch {entity : String} {b : Behavior} (hb : Play.startsClone b.trigger = false) :
    Obeys R (launch entity b) := by
  refine Tale.look fun s => Tale.ite _ (fun _ => hR.pure _) fun free => ?_
  obtain ⟨running, idle⟩ : s.running = true ∧ s.scheduler.isActive entity b.id = false := by
    simpa using free
  refine hR.bind (m := fun _ _ => True) (hR.seen hb ?_ fun _ _ _ _ _ => trivial) fun _ => ?_
  · rintro t ⟨rfl, -⟩
    exact ⟨_, .launch running idle, .refl _⟩
  · refine hR.bind (hR.slice hc _) fun left => ?_
    cases left <;> exact hR.bind (hR.moved fun _ => rfl) fun _ => hR.pure _

theorem resume (t : Task) : Obeys R (resume t) := by
  refine Tale.ask fun s => ?_
  cases may : s.mayRun t.entity with
  | false => exact hR.bind (hR.moved fun _ => rfl) fun _ => hR.pure none
  | true =>
    have looked := Tale.weaken (hR.look t)
      (fun u (hu : u = s ∧ True) => by rw [hu.1, may]) fun _ _ => id
    refine hR.bind looked fun ready => ?_
    cases ready with
    | false => exact hR.pure _
    | true =>
      refine hR.bind (hR.slice hc t) fun left => ?_
      cases left with
      | some t => exact hR.pure _
      | none => exact hR.bind (hR.moved fun _ => rfl) fun _ => hR.pure none

theorem resumeEach (l : List Task) : Obeys R (resumeEach l) := by
  induction l with
  | nil => exact hR.pure _
  | cons t rest ih => exact hR.bind (hR.resume hc t) fun _ => hR.bind ih fun _ => hR.pure _

theorem resumeAll : Obeys R resumeAll := by
  have taken : Obeys R (liftM Play.takeWaiting) :=
    Tale.silent (fun s _ => hR.tasks s [] s.scheduler.active) fun _ _ _ _ _ => trivial
  refine hR.bind taken fun waiting => hR.bind (hR.resumeEach hc waiting) fun still => ?_
  exact Tale.ask fun s => Tale.ite _ (fun _ => hR.moved fun _ => rfl) fun _ => hR.pure ()

/-! ## The start phase -/

theorem runStarts (l : List (String × Behavior)) : Obeys R (runStarts l) := by
  have dropped : ∀ s : Session, ¬s.running = true →
      Follows R (fun t => t = s ∧ True) (liftM (Play.schedule fun _ => .idle)) fun _ _ => True :=
    fun s idle =>
      Tale.weaken hR.dropped (fun t ht => ht.1 ▸ Bool.eq_false_iff.mpr idle) fun _ _ => id
  induction l with
  | nil =>
    refine Tale.ask fun s => Tale.ite _ (fun running => ?_) (dropped s)
    refine hR.seen trivial ?_ fun _ _ _ _ _ => trivial
    rintro t ⟨rfl, -⟩
    exact ⟨_, .complete running, .refl _⟩
  | cons e rest ih =>
    obtain ⟨entity, b⟩ := e
    refine Tale.ask fun s => Tale.ite _ (fun running => ?_) (dropped s)
    refine hR.bind (m := fun _ _ => True) (hR.seen trivial ?_ fun _ _ _ _ _ => trivial) fun _ => ?_
    · rintro t ⟨rfl, -⟩
      exact ⟨_, .opened entity b rest running, .refl _⟩
    · refine hR.bind (hR.slice hc _) fun left => ?_
      cases left with
      | some t => exact hR.park t
      | none => exact hR.marked trivial (fun _ _ => .closed entity b.id) ih

theorem continueStart (t : Task) (rest : List (String × Behavior)) :
    Obeys R (continueStart t rest) := by
  refine hR.bind (hR.slice hc t) fun left => ?_
  cases left with
  | some t => exact hR.park t
  | none => exact hR.marked trivial (fun _ _ => .closed t.entity t.behavior) (hR.runStarts hc rest)

theorem advanceStart : Obeys R advanceStart := by
  refine Tale.look fun s => Tale.ite _ (fun _ => hR.pure _) fun _ => ?_
  refine Tale.ite _ (fun idle => Tale.weaken hR.dropped ?_ fun _ _ => id) fun _ => ?_
  · rintro t ⟨rfl, -⟩
    simpa using idle
  cases waiting : s.scheduler.startTask with
  | none => exact (hR.runStarts hc _).of
  | some t =>
    refine hR.bind (m := fun _ u => u.mayRun t.entity = s.mayRun t.entity)
      (hR.seen trivial ?_ ?_) fun _ => ?_
    · rintro u ⟨rfl, -⟩
      exact ⟨_, .fetched waiting, .refl _⟩
    · rintro u _ v ⟨rfl, -⟩ hv
      obtain ⟨-, rfl⟩ := EStateM.Result.ok.inj hv
      rfl
    -- whether the start script waits is known only after looking at what it waits for
    have go : ∀ waits : Bool, Obeys R
        (if waits then Chronicle.park t else Chronicle.continueStart t s.scheduler.startQueue) :=
      fun waits => Tale.ite _ (fun _ => hR.park t) fun _ => hR.continueStart hc t _
    refine Tale.ite _ (fun may => ?_) fun _ => hR.bind (hR.pure false) go
    have looked := Tale.weaken (hR.look t)
      (fun (u : Session) (hu : u.mayRun t.entity = s.mayRun t.entity) => hu.trans may) fun _ _ => id
    exact hR.bind (hR.bind looked fun _ => hR.pure _) go

/-! ## Delivery -/

theorem launchEach {entity : String} (l : List Behavior)
    (hl : ∀ b ∈ l, Play.startsClone b.trigger = false) : Obeys R (launchEach entity l) := by
  induction l with
  | nil => exact hR.pure 0
  | cons b rest ih =>
    obtain ⟨first, hl⟩ := List.forall_mem_cons.mp hl
    have others : ∀ launched : Bool, Obeys R (do
        let others ← Chronicle.launchEach entity rest
        return (if launched then 1 else 0) + others) :=
      fun launched => hR.bind (ih hl) fun _ => hR.pure _
    refine Tale.ask fun s => ?_
    cases s.isLive entity with
    | true => exact hR.bind (hR.launch hc first).of others
    | false => exact hR.bind (hR.pure false) others

/-- What passes a test that start triggers do not pass is no start script. -/
theorem launchAll {test : Trigger → Bool}
    (ht : ∀ t, test t = true → Play.startsClone t = false) (ids : List String) :
    Obeys R (launchAll test ids) := by
  induction ids with
  | nil => exact hR.pure ()
  | cons id rest ih =>
    refine Tale.ask fun s => hR.bind ?_ fun _ => ih
    exact hR.discarded
      (hR.launchEach hc _ fun b hb => ht b.trigger (passes_of_mem_behaviors hb)).of

theorem runLoops : Obeys R runLoops := by
  refine Tale.look fun s => Tale.ite _ (fun _ => ?_) fun _ => hR.pure ()
  exact (hR.launchAll hc (fun t loops => by rw [eq_of_beq loops]; rfl) _).of

theorem fireOnce {id : String} {b : Behavior} (hb : Play.startsClone b.trigger = false)
    (fired : Play.Fired) : Obeys R (fireOnce id b fired) :=
  Tale.ite _ (fun _ => hR.pure _) fun _ =>
    hR.bind (hR.discarded (hR.launch hc hb)) fun _ => hR.pure _

theorem deliverSide (id : String) (viewer other : Handle) (l : List Behavior)
    (fired : Play.Fired) : Obeys R (deliverSide id viewer other l fired) := by
  induction l generalizing fired with
  | nil => exact hR.pure _
  | cons b rest ih =>
    refine Tale.look fun s => Tale.ite _ (fun wanted => ?_) fun _ => hR.bind (hR.pure fired) ih
    obtain ⟨target, touching⟩ := touching_of_test wanted
    exact hR.bind (hR.fireOnce hc (by rw [touching]; rfl) fired).of ih

omit hc in
/-- A change beside the stage and the tasks. -/
theorem noted {f : Session → Session} (h : ∀ s : Session, s.Beside (f s)) :
    Follows R pre (liftM (Play.change f)) fun _ _ => True := hR.skilled fun s => .one (.beside (h s))

theorem deliverPairs (l : List ((String × Handle) × (String × Handle))) (fired : Play.Fired) :
    Obeys R (deliverPairs l fired) := by
  induction l generalizing fired with
  | nil => exact hR.pure _
  | cons pair rest ih =>
    obtain ⟨a, b⟩ := pair
    refine Tale.look fun s => Tale.ite _ (fun _ => hR.pure none) fun _ =>
      Tale.ite _ (fun _ => (ih fired).of) fun _ => ?_
    refine hR.bind (hR.noted fun s => ?_) fun _ => Tale.ask fun s =>
      hR.bind (hR.deliverSide hc _ _ _ _ _).of fun fired => Tale.ask fun s =>
      hR.bind (hR.deliverSide hc _ _ _ _ _).of ih
    -- the pair is noted, and told of unless it touched before
    have noted : s.Beside { s with touching := s.touching ++ [Event.sortedPair a.1 b.1] } :=
      ⟨⟨rfl, rfl⟩, rfl, rfl⟩
    dsimp only
    split
    · exact noted
    · exact noted.trans (Session.beside_emit _ _ rfl rfl)

theorem deliverWorld (id : String) (h : Handle) (l : List Behavior) (fired : Play.Fired) :
    Obeys R (deliverWorld id h l fired) := by
  induction l generalizing fired with
  | nil => exact hR.pure _
  | cons b rest ih =>
    refine Tale.look fun s => Tale.ite _ (fun _ => hR.pure fired) fun _ => ?_
    refine Tale.ite _ (fun touches => ?_) fun _ => hR.bind (hR.pure fired) ih
    obtain ⟨target, touching⟩ := touching_of_test touches
    exact hR.bind (hR.fireOnce hc (by rw [touching]; rfl) fired).of ih

theorem deliverWorlds (l : List (String × Handle)) (fired : Play.Fired) :
    Obeys R (deliverWorlds l fired) := by
  induction l generalizing fired with
  | nil => exact hR.pure ()
  | cons e rest ih => exact Tale.ask fun s => hR.bind (hR.deliverWorld hc _ _ _ _).of ih

theorem deliverTouches : Obeys R deliverTouches := by
  refine hR.bind (hR.noted fun s => ⟨⟨rfl, rfl⟩, rfl, rfl⟩) fun _ => Tale.look fun s =>
    Tale.ite _ (fun _ => hR.noted fun s => ⟨⟨rfl, rfl⟩, rfl, rfl⟩) fun _ => ?_
  refine hR.bind (hR.deliverPairs hc _ _).of fun fired => ?_
  cases fired with
  | none => exact hR.pure ()
  | some fired =>
    exact hR.bind (hR.deliverWorlds hc _ _) fun _ =>
      hR.noted fun s => ⟨⟨rfl, rfl⟩, rfl, rfl⟩

/-! ## Messages -/

theorem handleEach {entity : String} (l : List Behavior)
    (hl : ∀ b ∈ l, Play.startsClone b.trigger = false) (handlers : Nat) :
    Obeys R (handleEach entity l handlers) := by
  induction l generalizing handlers with
  | nil => exact hR.pure _
  | cons b rest ih =>
    obtain ⟨first, hl⟩ := List.forall_mem_cons.mp hl
    refine Tale.look fun s => Tale.ite _ (fun _ => hR.pure none) fun _ => ?_
    refine hR.marked trivial (fun _ _ => .turn entity b) (Tale.ite _ (fun _ => ?_) fun _ => ?_)
    · exact hR.bind (hR.launch hc first).of fun launched => ih hl _
    · exact hR.bind (hR.pure false) fun launched => ih hl _

theorem handleMessage (message : String) (ids : List String) (handlers : Nat) :
    Obeys R (handleMessage message ids handlers) := by
  induction ids generalizing handlers with
  | nil => exact hR.pure _
  | cons id rest ih =>
    refine hR.marked trivial (fun _ _ => .visit id) (Tale.ask fun s => ?_)
    have waits : ∀ b ∈ s.behaviors id (fun t => t == .message message),
        Play.startsClone b.trigger = false := by
      intro b hb
      have fits : b.trigger = .message message := eq_of_beq (passes_of_mem_behaviors hb)
      rw [fits]
      rfl
    refine hR.bind (hR.handleEach hc _ waits handlers).of fun handled => ?_
    cases handled with
    | none => exact hR.pure none
    | some handlers => exact ih handlers

theorem deliverMessages (l : List String) : Obeys R (deliverMessages l) := by
  induction l with
  | nil => exact hR.pure ()
  | cons m rest ih =>
    refine hR.marked trivial (fun _ _ => .deliver m) (Tale.ask fun s => ?_)
    refine hR.bind (hR.handleMessage hc _ _ _).of fun handled => ?_
    cases handled with
    | none => exact hR.pure ()
    | some handlers =>
      refine hR.bind (hR.seen trivial (fun s _ => ?_) fun _ _ _ _ _ => trivial) fun _ => ih
      exact ⟨_, .delivered m handlers, .refl _⟩

/-! ## Keys and the pointer -/

theorem keyDown (raw : String) : Obeys R (keyDown raw) := by
  rw [Chronicle.keyDown]
  cases Key.parse? raw with
  | none => exact hR.pure false
  | some key =>
    refine hR.bind (hR.noted fun s => ⟨⟨rfl, rfl⟩, rfl, rfl⟩) fun _ => Tale.look fun s => ?_
    refine Tale.ite _ (fun _ => hR.bind (hR.launchAll hc (fun t pressed => ?_) _).of fun _ =>
      hR.pure _) fun _ => hR.pure _
    split at pressed
    · rfl
    · cases pressed

theorem pointerDown (p : Vec Float32) : Obeys R (pointerDown p) := by
  refine hR.bind (hR.noted fun s => ⟨⟨rfl, rfl⟩, rfl, rfl⟩) fun _ => Tale.look fun s =>
    Tale.ite _ (fun _ => hR.pure none) fun _ => ?_
  cases Play.topmost? s p with
  | none => exact hR.pure none
  | some top =>
    obtain ⟨depth, id⟩ := top
    refine hR.bind (hR.discarded (hR.launchEach hc _ fun b hb => ?_).of) fun _ => hR.pure _
    have fits : b.trigger = .click := eq_of_beq (passes_of_mem_behaviors hb)
    rw [fits]
    rfl

/-! ## Rounds -/

omit hc in
theorem countPhase (name : String) : Obeys R (liftM (Play.countPhase name)) :=
  hR.skilled fun s => .one (.stage (s.stage.calm_record name))

omit hc in
theorem tick (dt : Float32) : Obeys R (liftM (Play.tick dt)) := by
  refine hR.skilled fun s => ?_
  rw [Play.tick]
  split
  · exact .one (.beside ⟨⟨rfl, rfl⟩, rfl, rfl⟩)
  · exact .refl s

theorem updateBy (dt : Float32) : Obeys R (updateBy dt) := by
  refine Tale.ask fun s => Tale.ite _ (fun running => ?_) fun _ => hR.pure ()
  refine hR.bind (m := fun _ _ => True) (hR.seen trivial ?_ fun _ _ _ _ _ => trivial)
    fun inbox => ?_
  · rintro t ⟨rfl, -⟩
    exact ⟨_, .update running, .refl _⟩
  -- the second half of a round, which is run whether or not touches are delivered
  have rest : Obeys R (do
      Play.countPhase "touching"
      if ← Play.ask Session.running then Chronicle.deliverMessages inbox
      Play.countPhase "messages") :=
    hR.bind (hR.countPhase _) fun _ => Tale.ask fun s => Tale.ite _
      (fun _ => hR.bind (hR.deliverMessages hc inbox).of fun _ => hR.countPhase _) fun _ =>
      (hR.countPhase _).of
  exact hR.bind (hR.tick _) fun _ => hR.bind (hR.skilled (Session.skill_stepPhysics _).feats)
    fun _ => hR.bind (hR.countPhase _) fun _ => hR.bind (hR.advanceStart hc) fun _ =>
    hR.bind (hR.resumeAll hc) fun _ => hR.bind (hR.countPhase _) fun _ =>
    hR.bind (hR.runLoops hc) fun _ => hR.bind (hR.countPhase _) fun _ => Tale.ask fun s =>
    Tale.ite _ (fun _ => hR.bind (hR.deliverTouches hc).of fun _ => rest) fun _ => rest.of

end Saga

end Chronicle

/-! ## Calls -/

/-- What is seen when a call begins, and the session with which it goes on: scripts run in it, unless
    the call runs none. -/
inductive Call.Opens (c : Call) (s : Session) : List Moment → Session → Prop where
  | call (h : ¬c.Plain) : c.Opens s [⟨.call c, s⟩] s
  | plain (h : c.Plain) : c.Opens s [⟨.call c, s⟩] (c.run.last s)
  | start (h : c = .script .start) (idle : s.running = false) :
    c.Opens s [⟨.call c, s⟩, ⟨.start, s⟩] s.begun

namespace Chronicle

/-- **What making a clone follows, a call follows** once it has begun. -/
theorem Saga.call {R : Session → List Moment → Session → Prop} (hR : Saga R)
    (hc : ∀ source, Obeys R (createClone source)) (c : Call) (s : Session) :
    Yields c.watched s fun _ t l =>
      ∃ front u rest, l = front ++ rest ∧ c.Opens s front u ∧ R u rest t := by
  have made : ∀ source, Obeys R (makeClone source) := fun source => hR.discarded (hc source)
  -- a call that may run scripts is marked first
  have marked : ∀ {c : Call} {p : Chronicle Unit}, ¬c.Plain → Obeys R p →
      Yields (do mark (.call c); p) s fun _ t l =>
        ∃ front u rest, l = front ++ rest ∧ c.Opens s front u ∧ R u rest t :=
    fun h hp => .marked ((hp.yields s).mono fun _ t l told => ⟨_, s, l, rfl, .call h, told⟩)
  have plain : ∀ {c : Call}, c.Plain → Yields (Chronicle.seen (.call c) c.run) s fun _ t l =>
      ∃ front u rest, l = front ++ rest ∧ c.Opens s front u ∧ R u rest t := by
    intro c h a t ha
    have returned : c.run.last s = t := Play.last_of_ok ha
    have opens : c.Opens s [⟨.call c, s⟩] t := returned ▸ Call.Opens.plain h
    exact ⟨[⟨.call c, s⟩], t, [], rfl, opens, hR.start t⟩
  cases c with
  | script c =>
    cases c with
    | start =>
      refine .marked (.ask ?_)
      cases running : s.running with
      | true =>
        have noted : Obeys R (liftM (Play.change fun s =>
            s.note .info "start ignored: already running")) :=
          hR.skilled (Session.skill_note _ _).feats
        exact (noted.yields s).mono fun _ t l told => ⟨_, s, l, rfl, .call id, told⟩
      | false =>
        refine Yields.bind (Q := fun _ t l => t = s.begun ∧ l = [⟨.start, s⟩])
          (.seen ⟨rfl, rfl⟩) ?_
        rintro _ _ _ ⟨rfl, rfl⟩
        exact ((hR.advanceStart made).yields _).mono fun _ t l told =>
          ⟨_, s.begun, l, rfl, .start rfl running, told⟩
    | update => exact marked id (Tale.ask fun s => (hR.updateBy made _).of)
    | updateBy dt => exact marked id (hR.updateBy made dt)
    | keyDown raw => exact marked id (hR.discarded (hR.keyDown made raw))
    | pointerDown p => exact marked id (hR.discarded (hR.pointerDown made p))
    | createClone source => exact marked id (hR.discarded (hc source))
  | broadcast message => exact marked id (hR.posted message fun _ => trivial)
  | _ => exact plain trivial

end Chronicle

end BlockStage
