/-
  Deeds: what scripts can do to a session.

  1. **Deeds** — whatever a script does, save making clones, comes down to six kinds of change:
     something beside the stage and the tasks, a change of the stage that keeps the cast, a
     variable, a catalog, a deletion, and the end of everything (`Session.Deed`).  A property that
     each of the six keeps is kept by every script.  What scripts do, save making clones and
     queueing messages, can be told more finely: nobody is woken, no message is queued and none is
     reported, and catalogs only grow by looping behaviors (`Session.Feat`).  What adds no looping
     behavior either leaves the catalogs of all who stay as they are (`Session.Trick`).

  2. **Tasks and the clone budget** — tasks are moved about by the scheduler, and the budget is read
     where the queue of clones is worked off.  A function of sessions that has nothing to do with
     either does the same whatever is put over them (`Session.Apart`).

  3. Each function that scripts are made of is a number of deeds, stands apart, leaves the sounds as
     they are and does to the player only what can be done to it (`Session.Act`), and all but two
     are tricks (`Session.Skill`).  None of them has anything to do with the touches that are noted
     and reported (`Session.Tidy`).
-/
import BlockStage.Proofs.Playback
import BlockStage.Proofs.Stage.Cast
import BlockStage.Session.Call
import Mathlib.Logic.Relation

namespace BlockStage

/-- Does an event tell of a deletion? -/
def Event.isDeletion : Event → Bool
  | .deleted _ => true
  | _ => false

/-- Does an event tell that a clone has come or that someone has gone? -/
def Event.isPassage : Event → Bool
  | .cloneSpawned _ _ => true
  | .deleted _ => true
  | _ => false

/-- The message that an event tells the delivery of, and the number of behaviors launched. -/
def Event.heard? : Event → Option (String × Nat)
  | .messageDelivered m handlers => some (m, handlers)
  | _ => none

/-- The two that an event tells to have begun to touch, in order. -/
def Event.onset? : Event → Option (String × String)
  | .touchingStarted a b => some (a, b)
  | _ => none

namespace Session

/-! ## Deeds -/

/-- The number of deletions that the events tell of. -/
def deletions (s : Session) : Nat := s.events.countP Event.isDeletion

/-- The events that tell of clones and deletions. -/
def passages (s : Session) : List Event := s.events.filter Event.isPassage

theorem deletions_eq (s : Session) : s.deletions = s.passages.countP Event.isDeletion := by
  rw [deletions, passages, List.countP_filter]
  refine List.countP_congr fun e _ => ?_
  cases e <;> rfl

/-- The session with everything that is beside the stage, the variables, the catalogs and the tasks
    taken from another. -/
def withAside (s t : Session) : Session :=
  { s with
    costumes := t.costumes
    sounds := t.sounds
    inbox := t.inbox
    touching := t.touching
    touchingBefore := t.touchingBefore
    input := t.input
    player := t.player
    journal := t.journal
    journalShared := t.journalShared
    events := t.events
    clock := t.clock
    generator := t.generator
    pendingScene := t.pendingScene
    nextBehavior := t.nextBehavior }

/-- Only things beside the stage, the variables, the catalogs and the tasks have changed, and nobody
    has come or gone. -/
structure Aside (s t : Session) : Prop where
  rest : t = s.withAside t
  passages : t.passages = s.passages

theorem Aside.deletions {s t : Session} (h : s.Aside t) : t.deletions = s.deletions := by
  rw [deletions_eq, deletions_eq, h.passages]

theorem Aside.trans {s t u : Session} (h : s.Aside t) (k : t.Aside u) : s.Aside u where
  rest := by
    have same : t.withAside u = (s.withAside t).withAside u := congrArg (withAside · u) h.rest
    exact k.rest.trans same
  passages := k.passages.trans h.passages

/-- One change of a session that scripts can bring about without making a clone. -/
inductive Deed : Session → Session → Prop where
  | aside {s t : Session} (h : s.Aside t) : Deed s t
  | stage {s : Session} {stage : Stage Float32} (h : s.stage.SameCast stage) :
    Deed s { s with stage := stage }
  | write {s : Session} (id key : String) (v : Value) :
    Deed s { s with store := (s.store.set id key v).2 }
  | catalog {s : Session} {id : String} {c : Catalog} (d : Catalog)
    (h : s.catalogs.get? id = some c) : Deed s { s with catalogs := s.catalogs.insert id d }
  | delete {s : Session} (id : String) : Deed s (s.deleteEntity id).2
  | stop {s : Session} : Deed s s.stopAll

/-- A deed leaves the queue of clones alone, or stops everything and empties it. -/
theorem Deed.queue {s t : Session} (h : Deed s t) :
    t.draining = s.draining ∧ (t.cloneStarts = s.cloneStarts ∨ t.cloneStarts = []) := by
  cases h with
  | aside h =>
    rw [h.rest]
    exact ⟨rfl, .inl rfl⟩
  | stage h => exact ⟨rfl, .inl rfl⟩
  | write id key v => exact ⟨rfl, .inl rfl⟩
  | catalog d known => exact ⟨rfl, .inl rfl⟩
  | delete id =>
    rw [deleteEntity]
    split <;> exact ⟨rfl, .inl rfl⟩
  | stop =>
    rw [stopAll]
    split
    · exact ⟨rfl, .inl rfl⟩
    · exact ⟨rfl, .inr rfl⟩

/-- A queue that is empty stays empty. -/
theorem Deed.cloneStarts {s t : Session} (h : Deed s t) (empty : s.cloneStarts = []) :
    t.cloneStarts = [] :=
  h.queue.2.elim (fun same => same.trans empty) id

/-- No deed changes the settings, the number of the last clone or a template. -/
theorem Deed.fixed {s t : Session} (h : Deed s t) :
    t.config = s.config ∧ t.cloneSerial = s.cloneSerial ∧ t.templates = s.templates := by
  cases h with
  | aside h =>
    rw [h.rest]
    exact ⟨rfl, rfl, rfl⟩
  | delete id =>
    rw [deleteEntity]
    split <;> exact ⟨rfl, rfl, rfl⟩
  | stop =>
    rw [stopAll]
    split <;> exact ⟨rfl, rfl, rfl⟩
  | _ => exact ⟨rfl, rfl, rfl⟩

/-- Any number of deeds. -/
def Deeds : Session → Session → Prop := Relation.ReflTransGen Deed

namespace Deeds

variable {s t u : Session}

theorem refl (s : Session) : Deeds s s := Relation.ReflTransGen.refl

theorem one (h : Deed s t) : Deeds s t := Relation.ReflTransGen.single h

theorem trans (h : Deeds s t) (k : Deeds t u) : Deeds s u := Relation.ReflTransGen.trans h k

theorem aside (h : s.Aside t) : Deeds s t := .one (.aside h)

/-- What every deed keeps is kept by any number of them. -/
theorem keep {I : Session → Prop} (hI : ∀ s t, Deed s t → I s → I t) (h : Deeds s t) (hs : I s) :
    I t := by
  induction h with
  | refl => exact hs
  | tail _ deed ih => exact hI _ _ deed ih

end Deeds

theorem aside_note (s : Session) (kind : EntryKind) (message : String) :
    s.Aside (s.note kind message) := ⟨rfl, rfl⟩

theorem passages_emit (s : Session) (e : Event) (h : e.isPassage = false) :
    (s.emit e).passages = s.passages := by
  have none : [e].filter Event.isPassage = [] := by
    rw [List.filter_cons, h]
    rfl
  rw [passages, passages, emit, List.filter_append, none, List.append_nil]

theorem deletions_emit (s : Session) (e : Event) (h : e.isDeletion = false) :
    (s.emit e).deletions = s.deletions := by
  rw [deletions, deletions, emit, List.countP_append, List.countP_singleton, h]
  rfl

theorem aside_emit (s : Session) (e : Event) (h : e.isPassage = false) : s.Aside (s.emit e) :=
  ⟨rfl, s.passages_emit e h⟩

/-! ## Feats -/

/-- The deliveries that the events tell of. -/
def heard (s : Session) : List (String × Nat) := s.events.filterMap Event.heard?

/-- Besides that only things beside the stage and the tasks have changed, no message has been queued
    or reported. -/
structure Beside (s t : Session) : Prop extends s.Aside t where
  inbox : t.inbox = s.inbox
  heard : t.heard = s.heard

namespace Beside

variable {s t u : Session}

theorem refl (s : Session) : s.Beside s := ⟨⟨rfl, rfl⟩, rfl, rfl⟩

theorem trans (h : s.Beside t) (k : t.Beside u) : s.Beside u :=
  ⟨h.toAside.trans k.toAside, k.inbox.trans h.inbox, k.heard.trans h.heard⟩

end Beside

theorem beside_note (s : Session) (kind : EntryKind) (message : String) :
    s.Beside (s.note kind message) := ⟨s.aside_note kind message, rfl, rfl⟩

/-- Telling of things that are neither passages nor deliveries. -/
theorem beside_tell (s : Session) (l : List Event)
    (h : ∀ e ∈ l, e.isPassage = false ∧ e.heard? = none) :
    s.Beside { s with events := s.events ++ l } := by
  have none : l.filter Event.isPassage = [] :=
    List.filter_eq_nil_iff.mpr fun e he => by simp [(h e he).1]
  have unheard : l.filterMap Event.heard? = [] :=
    List.filterMap_eq_nil_iff.mpr fun e he => (h e he).2
  refine ⟨⟨rfl, ?_⟩, rfl, ?_⟩
  · rw [passages, passages, List.filter_append, none, List.append_nil]
  · rw [heard, heard, List.filterMap_append, unheard, List.append_nil]

theorem beside_emit (s : Session) (e : Event) (h : e.isPassage = false) (k : e.heard? = none) :
    s.Beside (s.emit e) :=
  s.beside_tell [e] fun _ he => (List.mem_singleton.mp he) ▸ ⟨h, k⟩

/-- One change that scripts can bring about without making a clone or queueing a message. -/
inductive Feat : Session → Session → Prop where
  | beside {s t : Session} (h : s.Beside t) : Feat s t
  | stage {s : Session} {stage : Stage Float32} (h : s.stage.Calm stage) :
    Feat s { s with stage := stage }
  | write {s : Session} (id key : String) (v : Value) :
    Feat s { s with store := (s.store.set id key v).2 }
  | loop {s : Session} {id : String} {c : Catalog} (loop : Nat) (body : List Stmt)
    (h : s.catalogs.get? id = some c) :
    Feat s { s with catalogs := s.catalogs.insert id (c.register ⟨loop, .forever, body⟩).2 }
  | delete {s : Session} (id : String) : Feat s (s.deleteEntity id).2
  | stop {s : Session} : Feat s s.stopAll

/-- A feat is a deed. -/
theorem Feat.deed {s t : Session} (h : Feat s t) : Deed s t := by
  cases h with
  | beside h => exact .aside h.toAside
  | stage h => exact .stage h.toSameCast
  | write id key v => exact .write id key v
  | loop loop body h => exact .catalog _ h
  | delete id => exact .delete id
  | stop => exact .stop

/-- Any number of feats. -/
def Feats : Session → Session → Prop := Relation.ReflTransGen Feat

namespace Feats

variable {s t u : Session}

theorem refl (s : Session) : Feats s s := Relation.ReflTransGen.refl

theorem one (h : Feat s t) : Feats s t := Relation.ReflTransGen.single h

theorem trans (h : Feats s t) (k : Feats t u) : Feats s u := Relation.ReflTransGen.trans h k

theorem beside (h : s.Beside t) : Feats s t := .one (.beside h)

theorem deeds (h : Feats s t) : Deeds s t := by
  induction h with
  | refl => exact .refl s
  | tail _ feat ih => exact ih.trans (.one feat.deed)

end Feats

/-! ## Tricks -/

/-- One change that scripts can bring about without making a clone, queueing a message or adding a
    looping behavior. -/
inductive Trick : Session → Session → Prop where
  | beside {s t : Session} (h : s.Beside t) : Trick s t
  | stage {s : Session} {stage : Stage Float32} (h : s.stage.Calm stage) :
    Trick s { s with stage := stage }
  | write {s : Session} (id key : String) (v : Value) :
    Trick s { s with store := (s.store.set id key v).2 }
  | delete {s : Session} (id : String) : Trick s (s.deleteEntity id).2
  | stop {s : Session} : Trick s s.stopAll

/-- A trick is a feat. -/
theorem Trick.feat {s t : Session} (h : Trick s t) : Feat s t := by
  cases h with
  | beside h => exact .beside h
  | stage h => exact .stage h
  | write id key v => exact .write id key v
  | delete id => exact .delete id
  | stop => exact .stop

/-- Any number of tricks. -/
def Tricks : Session → Session → Prop := Relation.ReflTransGen Trick

namespace Tricks

variable {s t u : Session}

theorem refl (s : Session) : Tricks s s := Relation.ReflTransGen.refl

theorem one (h : Trick s t) : Tricks s t := Relation.ReflTransGen.single h

theorem trans (h : Tricks s t) (k : Tricks t u) : Tricks s u := Relation.ReflTransGen.trans h k

theorem beside (h : s.Beside t) : Tricks s t := .one (.beside h)

theorem note (h : Tricks s t) (kind : EntryKind) (message : String) :
    Tricks s (t.note kind message) := h.trans (.beside (t.beside_note kind message))

theorem feats (h : Tricks s t) : Feats s t := by
  induction h with
  | refl => exact .refl s
  | tail _ trick ih => exact ih.trans (.one trick.feat)

end Tricks

/-! ## Disguises -/

/-- Something put over the tasks and the clone budget of a session.  An idle scheduler has nothing
    to hide. -/
structure Disguise where
  tasks : Scheduler → Scheduler
  budget : Nat → Nat
  idle : tasks .idle = .idle

/-- The session under a disguise. -/
def under (s : Session) (d : Disguise) : Session :=
  { s with scheduler := d.tasks s.scheduler, cloneBudget := d.budget s.cloneBudget }

/-- A function of sessions that has nothing to do with the tasks and the clone budget, so that it
    does the same under every disguise. -/
def Apart {α : Type} (f : Session → α × Session) : Prop :=
  ∀ s d, f (s.under d) = ((f s).1, (f s).2.under d)

/-- The session with another clone budget. -/
def withBudget (s : Session) (n : Nat) : Session := { s with cloneBudget := n }

theorem withBudget_cloneBudget (s : Session) : s.withBudget s.cloneBudget = s := rfl

/-- A function of sessions that has nothing to do with the clone budget. -/
def Blind {α : Type} (f : Session → α × Session) : Prop :=
  ∀ s n, f (s.withBudget n) = ((f s).1, (f s).2.withBudget n)

/-- Another budget is a disguise. -/
theorem Apart.blind {α : Type} {f : Session → α × Session} (h : Apart f) : Blind f :=
  fun s n => h s ⟨id, fun _ => n, rfl⟩

section
variable (s : Session) (d : Disguise) (id : String)

@[simp] theorem stage_under : (s.under d).stage = s.stage := rfl
@[simp] theorem templates_under : (s.under d).templates = s.templates := rfl
@[simp] theorem catalogs_under : (s.under d).catalogs = s.catalogs := rfl
@[simp] theorem handle?_under : (s.under d).handle? id = s.handle? id := rfl
@[simp] theorem position?_under : (s.under d).position? id = s.position? id := rfl
@[simp] theorem direction?_under : (s.under d).direction? id = s.direction? id := rfl
@[simp] theorem whereIs?_under (target : String) :
    (s.under d).whereIs? target = s.whereIs? target := rfl
@[simp] theorem now_under : (s.under d).now = s.now := rfl

end

/-! ## Acts and skills -/

/-- The touches whose beginning the events tell of. -/
def onsets (s : Session) : List (String × String) := s.events.filterMap Event.onset?

/-- What scripts leave as it is: the sounds, the touches of this update and of an earlier one, and
    those whose beginning the events tell of. -/
structure Keepsakes where
  sounds : Table String Sound
  touching : List (String × String)
  touchingBefore : List (String × String)
  onsets : List (String × String)

/-- What scripts leave as it is in a session. -/
def keepsakes (s : Session) : Keepsakes := ⟨s.sounds, s.touching, s.touchingBefore, s.onsets⟩

/-- Telling of what is no touch. -/
theorem keepsakes_tell (s : Session) (l : List Event) (h : ∀ e ∈ l, e.onset? = none) :
    { s with events := s.events ++ l }.keepsakes = s.keepsakes := by
  have same : (s.events ++ l).filterMap Event.onset? = s.onsets := by
    rw [List.filterMap_append, List.filterMap_eq_nil_iff.mpr h]
    exact List.append_nil _
  exact congrArg (Keepsakes.mk _ _ _) same

theorem keepsakes_emit (s : Session) (e : Event) (h : e.onset? = none) :
    (s.emit e).keepsakes = s.keepsakes :=
  s.keepsakes_tell [e] fun _ he => (List.mem_singleton.mp he) ▸ h

/-- What scripts leave as it is has stayed so, and the player has gone on. -/
structure Spares (s t : Session) : Prop where
  keepsakes : t.keepsakes = s.keepsakes
  player : s.player.Evolves t.player

namespace Spares

variable {s t u : Session}

theorem refl (s : Session) : s.Spares s := ⟨rfl, .refl _⟩

theorem trans (h : s.Spares t) (k : t.Spares u) : s.Spares u :=
  ⟨k.keepsakes.trans h.keepsakes, h.player.trans k.player⟩

theorem sounds (h : s.Spares t) : t.sounds = s.sounds := congrArg Keepsakes.sounds h.keepsakes

end Spares

/-- Telling of what is no touch. -/
theorem spares_emit (s : Session) (e : Event) (h : e.onset? = none) : s.Spares (s.emit e) :=
  ⟨s.keepsakes_emit e h, .refl _⟩

/-- A function of sessions that scripts can be made of. -/
structure Act {α : Type} (f : Session → α × Session) : Prop where
  deeds : ∀ s, Deeds s (f s).2
  apart : Apart f
  sounds : ∀ s, (f s).2.sounds = s.sounds
  player : ∀ s : Session, s.player.Evolves (f s).2.player

/-- An act that has nothing to do with touches. -/
structure Tidy {α : Type} (f : Session → α × Session) : Prop where
  deeds : ∀ s, Deeds s (f s).2
  apart : Apart f
  kept : ∀ s : Session, s.Spares (f s).2

/-- A function of sessions that scripts can be made of and that neither queues a message nor adds a
    looping behavior. -/
structure Skill {α : Type} (f : Session → α × Session) : Prop where
  tricks : ∀ s, Tricks s (f s).2
  apart : Apart f
  kept : ∀ s : Session, s.Spares (f s).2

/-- An act does the same within any clone budget. -/
theorem Act.blind {α : Type} {f : Session → α × Session} (h : Act f) : Blind f := h.apart.blind

theorem Tidy.act {α : Type} {f : Session → α × Session} (h : Tidy f) : Act f :=
  ⟨h.deeds, h.apart, fun s => (h.kept s).sounds, fun s => (h.kept s).player⟩

theorem Skill.feats {α : Type} {f : Session → α × Session} (h : Skill f) (s : Session) :
    Feats s (f s).2 := (h.tricks s).feats

theorem Skill.tidy {α : Type} {f : Session → α × Session} (h : Skill f) : Tidy f :=
  ⟨fun s => (h.feats s).deeds, h.apart, h.kept⟩

theorem Skill.act {α : Type} {f : Session → α × Session} (h : Skill f) : Act f := h.tidy.act

/-- What stands apart does so also if only the change counts. -/
theorem Apart.change {α : Type} {f : Session → α × Session} (h : Apart f) :
    Apart fun s => ((), (f s).2) := by
  intro s d
  dsimp only
  rw [h s d]

/-- A skill of which only the change counts. -/
theorem Skill.change {α : Type} {f : Session → α × Session} (h : Skill f) :
    Skill fun s => ((), (f s).2) := ⟨h.tricks, h.apart.change, h.kept⟩

section
variable (id : String)

/-- A question. -/
theorem skill_ask {α : Type} (f : Session → α) (hf : ∀ s d, f (s.under d) = f s) :
    Skill fun s => (f s, s) where
  tricks s := .refl s
  apart s d := by dsimp only; rw [hf]
  kept s := .refl s

/-- What asks for something and is a skill once it has been found is a skill. -/
theorem skill_found {α β : Type} {f : Session → α × Session} {a : α} (q : Session → Option β)
    (g : β → Session → α × Session) (hq : ∀ s d, q (s.under d) = q s)
    (missed : ∀ s, q s = none → f s = (a, s)) (found : ∀ s b, q s = some b → f s = g b s)
    (hg : ∀ b, Skill (g b)) : Skill f where
  tricks s := by
    cases hb : q s with
    | none =>
      rw [missed s hb]
      exact .refl s
    | some b =>
      rw [found s b hb]
      exact (hg b).tricks s
  apart s d := by
    cases hb : q s with
    | none => rw [missed s hb, missed _ ((hq s d).trans hb)]
    | some b =>
      rw [found s b hb, found _ b ((hq s d).trans hb)]
      exact (hg b).apart s d
  kept s := by
    cases hb : q s with
    | none =>
      rw [missed s hb]
      exact .refl s
    | some b =>
      rw [found s b hb]
      exact (hg b).kept s

/-- A change of something beside the stage and the tasks. -/
theorem act_aside {α : Type} (f : Session → α × Session) (hf : ∀ s : Session, s.Aside (f s).2)
    (hb : Apart f) (sounds : ∀ s, (f s).2.sounds = s.sounds)
    (player : ∀ s : Session, s.player.Evolves (f s).2.player) : Act f where
  deeds s := .aside (hf s)
  apart := hb
  sounds := sounds
  player := player

/-- Such a change that has nothing to do with touches. -/
theorem tidy_aside {α : Type} (f : Session → α × Session) (hf : ∀ s : Session, s.Aside (f s).2)
    (hb : Apart f) (kept : ∀ s : Session, s.Spares (f s).2) : Tidy f where
  deeds s := .aside (hf s)
  apart := hb
  kept := kept

/-- A change beside the stage, the tasks and the messages. -/
theorem skill_beside {α : Type} (f : Session → α × Session) (hf : ∀ s : Session, s.Beside (f s).2)
    (hb : Apart f) (kept : ∀ s : Session, s.Spares (f s).2) : Skill f where
  tricks s := .beside (hf s)
  apart := hb
  kept := kept

theorem skill_note (kind : EntryKind) (message : String) :
    Skill fun s => ((), s.note kind message) :=
  skill_beside _ (fun s => s.beside_note kind message) (fun _ _ => rfl) fun _ => ⟨rfl, .refl _⟩

/-- What is followed by something else if it has been done. -/
theorem skill_followed {f : Session → Bool × Session} {g : Session → Session} (hf : Skill f)
    (hg : Skill fun s => ((), g s)) :
    Skill fun s =>
      let r := f s
      if r.1 then (true, g r.2) else r where
  tricks s := by
    dsimp only
    split
    · exact (hf.tricks s).trans (hg.tricks _)
    · exact hf.tricks s
  apart s d := by
    have after : g ((f s).2.under d) = (g (f s).2).under d :=
      congrArg Prod.snd (hg.apart (f s).2 d)
    simp only [hf.apart s d, after]
    split <;> rfl
  kept s := by
    dsimp only
    split
    · exact (hf.kept s).trans (hg.kept _)
    · exact hf.kept s

/-! ### On the stage -/

theorem skill_onStage (f : Stage Float32 → Handle → Bool × Stage Float32)
    (hf : ∀ (st : Stage Float32) h, st.Calm (f st h).2) : Skill fun s => s.onStage id f where
  tricks s := by
    dsimp only [onStage]
    split
    · exact .one (.stage (hf s.stage _))
    · exact .refl s
  apart s d := by
    simp only [onStage, handle?_under]
    split <;> rfl
  kept s := by
    dsimp only [onStage]
    split <;> exact ⟨rfl, .refl _⟩

theorem skill_place (p : Vec Float32) : Skill fun s => s.place id p :=
  skill_onStage id _ fun st h => st.calm_adjustWorld h _

theorem skill_pointInDirection (degrees : Float32) : Skill fun s => s.pointInDirection id degrees :=
  skill_onStage id _ fun st h => st.calm_adjustWorld h _

theorem skill_moveSteps (steps : Float32) : Skill fun s => s.moveSteps id steps where
  tricks s := by
    dsimp only [moveSteps]
    split
    · exact (skill_place id _).tricks s
    · exact .refl s
  apart s d := by
    simp only [moveSteps, position?_under, direction?_under]
    split
    · exact (skill_place id _).apart s d
    · rfl
  kept s := by
    dsimp only [moveSteps]
    split
    · exact (skill_place id _).kept s
    · exact .refl s

theorem skill_turn (degrees : Float32) : Skill fun s => s.turn id degrees :=
  skill_found (·.direction? id) (fun d s => s.pointInDirection id (d + degrees)) (fun _ _ => rfl)
    (fun s h => by rw [turn, h]) (fun s d h => by rw [turn, h]) fun d => skill_pointInDirection id _

theorem skill_goTo (x y : Option Float32) : Skill fun s => s.goTo id x y :=
  skill_found (·.position? id) (fun p s => s.place id ⟨x.getD p.x, y.getD p.y⟩) (fun _ _ => rfl)
    (fun s h => by rw [goTo, h]) (fun s p h => by rw [goTo, h]) fun p => skill_place id _

theorem skill_changePosition (offset : Vec Float32) : Skill fun s => s.changePosition id offset :=
  skill_found (·.position? id) (fun p s => s.place id (p + offset)) (fun _ _ => rfl)
    (fun s h => by rw [changePosition, h]) (fun s p h => by rw [changePosition, h])
    fun p => skill_place id _

theorem skill_pointTowards (target : String) : Skill fun s => s.pointTowards id target where
  tricks s := by
    dsimp only [pointTowards]
    split
    · split
      · exact .refl s
      · exact (skill_pointInDirection id _).tricks s
    · exact .refl s
  apart s d := by
    simp only [pointTowards, position?_under, whereIs?_under]
    split
    · split
      · rfl
      · exact (skill_pointInDirection id _).apart s d
    · rfl
  kept s := by
    dsimp only [pointTowards]
    split
    · split
      · exact .refl s
      · exact (skill_pointInDirection id _).kept s
    · exact .refl s

theorem skill_goToTarget (target : String) : Skill fun s => s.goToTarget id target :=
  skill_found (·.whereIs? target) (fun goal s => s.place id goal) (fun _ _ => rfl)
    (fun s h => by rw [goToTarget, h]) (fun s goal h => by rw [goToTarget, h])
    fun goal => skill_place id goal

theorem skill_beginGlide (seconds : Float) (goal : Vec Float32) :
    Skill fun s => s.beginGlide id seconds goal where
  tricks s := by
    dsimp only [beginGlide]
    split
    · exact .refl s
    · split
      · exact (skill_place id _).tricks s
      · exact .refl s
  apart s d := by
    simp only [beginGlide, position?_under, now_under]
    split
    · rfl
    · split
      · exact congrArg (fun r => (none, r.2)) ((skill_place id goal).apart s d)
      · rfl
  kept s := by
    dsimp only [beginGlide]
    split
    · exact .refl s
    · split
      · exact (skill_place id _).kept s
      · exact .refl s

theorem skill_enablePhysics : Skill fun s => s.enablePhysics id :=
  skill_followed (skill_onStage id _ fun st h => st.calm_enablePhysics h _) (skill_note _ _)

theorem skill_setVelocity (v : Vec Float32) : Skill fun s => s.setVelocity id v :=
  skill_onStage id _ fun st h => st.calm_setVelocity h v

theorem skill_setGravityScale (scale : Float32) : Skill fun s => s.setGravityScale id scale :=
  skill_onStage id _ fun st h => st.calm_setGravityScale h scale

theorem skill_setVisible (visible : Bool) : Skill fun s => s.setVisible id visible :=
  skill_onStage id _ fun st h => st.calm_setVisible h visible

theorem skill_setScale (scale : Float32) : Skill fun s => s.setScale id scale :=
  skill_onStage id _ fun st h => st.calm_adjustWorld h _

theorem skill_changeScale (delta : Float32) : Skill fun s => s.changeScale id delta :=
  skill_found (·.scale? id) (fun current s => s.setScale id (current + delta)) (fun _ _ => rfl)
    (fun s h => by rw [changeScale, h]) (fun s current h => by rw [changeScale, h])
    fun current => skill_setScale id _

theorem skill_setDepth (depth : Int) : Skill fun s => s.setDepth id depth :=
  skill_onStage id _ fun st h => st.calm_setDepth h depth

theorem beside_noteCostume (s : Session) : s.Beside (s.noteCostume id) := by
  rw [noteCostume]
  split
  · split
    · exact s.beside_note _ _
    · exact .refl s
  · exact .refl s

theorem noteCostume_under (s : Session) (d : Disguise) :
    (s.under d).noteCostume id = (s.noteCostume id).under d := by
  rw [noteCostume, noteCostume, handle?_under]
  cases s.handle? id with
  | none => rfl
  | some h =>
    symm
    exact apply_ite (under · d) (s.stage.hasBody h = true) _ _

theorem skill_noteCostume : Skill fun s => ((), s.noteCostume id) := by
  refine skill_beside _ (beside_noteCostume id)
    (fun s d => Prod.ext rfl (noteCostume_under id s d)) fun s => ?_
  dsimp only [noteCostume]
  split
  · split <;> exact ⟨rfl, .refl _⟩
  · exact .refl s

theorem skill_switchCostume (key : String) : Skill fun s => s.switchCostume id key :=
  skill_followed (skill_onStage id _ fun st h => st.calm_switchCostume h key) (skill_noteCostume id)

theorem skill_nextCostume : Skill fun s => s.nextCostume id :=
  skill_followed (skill_onStage id _ fun st h => st.calm_nextCostume h) (skill_noteCostume id)

theorem skill_attach (parent : String) : Skill fun s => s.attach id parent where
  tricks s := by
    dsimp only [attach]
    split
    · exact .refl s
    · exact .refl s
    · rename_i c p _ _
      have kept := s.stage.calm_attach c p
      split <;> rename_i stage he <;> rw [he] at kept
      · exact (Tricks.one (.stage kept)).note _ _
      · exact .one (.stage kept)
  apart s d := by
    simp only [attach, handle?_under, stage_under]
    split
    · rfl
    · rfl
    · split <;> rfl
  kept s := by
    dsimp only [attach]
    split
    · exact .refl s
    · exact .refl s
    · split <;> exact ⟨rfl, .refl _⟩

theorem skill_detach : Skill fun s => s.detach id :=
  skill_followed (skill_onStage id _ fun st h => st.calm_detach h) (skill_note _ _)

theorem skill_stopEntity : Skill fun s => s.stopEntity id where
  tricks s := by
    dsimp only [stopEntity]
    split
    · exact .refl s
    · refine (Tricks.one (.stage ?_)).note _ _
      exact s.stage.calm_modify_look _ _ fun _ => ⟨rfl, rfl, rfl, fun _ => rfl⟩
  apart s d := by
    simp only [stopEntity, handle?_under]
    split <;> rfl
  kept s := by
    dsimp only [stopEntity]
    split <;> exact ⟨rfl, .refl _⟩

/-! ### Beside the stage -/

theorem skill_stopAllSounds : Skill fun s => ((), s.stopAllSounds) :=
  skill_beside _ (fun _ => ⟨⟨rfl, rfl⟩, rfl, rfl⟩) (fun _ _ => rfl) fun _ => ⟨rfl, .one .stopAll⟩

theorem skill_setVariable (key : String) (v : Value) : Skill fun s => s.setVariable id key v where
  tricks _ := .one (.write id key v)
  apart _ _ := rfl
  kept _ := ⟨rfl, .refl _⟩

theorem skill_changeVariable (key : String) (delta : Float) :
    Skill fun s => s.changeVariable id key delta where
  tricks s := by
    dsimp only [changeVariable, VariableStore.changeBy]
    split
    · exact .refl s
    · exact .one (.write id key _)
  apart _ _ := rfl
  kept _ := ⟨rfl, .refl _⟩

theorem aside_broadcast (s : Session) (message : String) : s.Aside (s.broadcast message) := by
  rw [broadcast]
  split <;> exact ⟨rfl, rfl⟩

theorem tidy_broadcast (message : String) : Tidy fun s => ((), s.broadcast message) := by
  refine tidy_aside _ (fun s => s.aside_broadcast message) (fun s d => ?_) fun s => ?_ <;>
    dsimp only [broadcast]
  · split <;> rfl
  · split <;> exact ⟨rfl, .refl _⟩

theorem skill_requestScene (scene : String) : Skill fun s => ((), s.requestScene scene) :=
  skill_beside _ (fun s => by
    have asked : s.Beside { s with pendingScene := some scene } := ⟨⟨rfl, rfl⟩, rfl, rfl⟩
    exact (asked.trans (beside_emit _ _ rfl rfl)).trans (beside_note _ _ _)) (fun _ _ => rfl)
    fun s => ⟨s.keepsakes_emit (.sceneSwitchRequested scene) rfl, .refl _⟩

theorem skill_resetTimer : Skill fun s => ((), s.resetTimer) :=
  skill_beside _ (fun _ => ⟨⟨rfl, rfl⟩, rfl, rfl⟩) (fun _ _ => rfl) fun _ => ⟨rfl, .refl _⟩

/-! ### Physics -/

/-- What a step reports is told of as contacts. -/
theorem reportStep_eq (s : Session) (r : StepReport) : ∃ l, s.reportStep r
    = { s with events := s.events ++ l } ∧
      ∀ e ∈ l, e.isPassage = false ∧ e.heard? = none ∧ e.onset? = none := by
  refine ⟨(r.grounds.filterMap fun g =>
    (s.stage.id? g.1).map fun id => Event.groundContact id g.2) ++ r.pairs.filterMap s.contactEvent?,
    by rw [reportStep, List.append_assoc], fun e he => ?_⟩
  rcases List.mem_append.mp he with ground | pair
  · obtain ⟨g, -, hg⟩ := List.mem_filterMap.mp ground
    obtain ⟨id, -, rfl⟩ := Option.map_eq_some_iff.mp hg
    exact ⟨rfl, rfl, rfl⟩
  · obtain ⟨p, -, hp⟩ := List.mem_filterMap.mp pair
    rw [contactEvent?] at hp
    split at hp
    · obtain rfl := Option.some.inj hp
      exact ⟨rfl, rfl, rfl⟩
    · cases hp

theorem beside_reportStep (s : Session) (r : StepReport) : s.Beside (s.reportStep r) := by
  obtain ⟨l, told, contacts⟩ := s.reportStep_eq r
  rw [told]
  exact s.beside_tell l fun e he => ⟨(contacts e he).1, (contacts e he).2.1⟩

theorem keepsakes_reportStep (s : Session) (r : StepReport) :
    (s.reportStep r).keepsakes = s.keepsakes := by
  obtain ⟨l, told, contacts⟩ := s.reportStep_eq r
  rw [told]
  exact s.keepsakes_tell l fun e he => (contacts e he).2.2

theorem skill_stepPhysics (dt : Float32) : Skill fun s => ((), s.stepPhysics dt) where
  tricks s := by
    have moved : Tricks s { s with stage := (s.stage.step dt).2 } :=
      .one (.stage (s.stage.calm_step dt))
    refine (moved.trans (.beside (beside_reportStep _ (s.stage.step dt).1))).trans ?_
    exact .beside ⟨⟨rfl, rfl⟩, rfl, rfl⟩
  apart _ _ := rfl
  kept s := ⟨keepsakes_reportStep { s with stage := (s.stage.step dt).2 } (s.stage.step dt).1,
    .one (.prune s.now)⟩

/-! ### Leaving -/

theorem skill_deleteEntity : Skill fun s => s.deleteEntity id where
  tricks s := .one (.delete id)
  apart s d := by
    simp only [deleteEntity, stage_under]
    split <;> rfl
  kept s := by
    dsimp only [deleteEntity]
    split
    · exact ⟨rfl, .refl _⟩
    · exact ⟨s.keepsakes_emit (.deleted id) rfl, .refl _⟩

theorem skill_stopAll : Skill fun s => ((), s.stopAll) where
  tricks _ := .one .stop
  apart s d := by
    refine Prod.ext rfl ?_
    show (s.under d).stopAll = s.stopAll.under d
    have same : (s.under d).running = s.running := rfl
    rw [stopAll, stopAll, same]
    split
    · rfl
    · -- what is stopped has an idle scheduler, under any disguise
      simp only [under, note, emit, now, d.idle]
  kept s := by
    dsimp only [stopAll]
    split
    · exact .refl s
    · exact ⟨s.keepsakes_emit .stopped rfl, .one .stopAll⟩

end

end Session

end BlockStage
