/-
  Chores: what hosts do to a session besides running scripts and queueing messages.

  1. **Chores** — a host can do to a session what scripts can, but also add to a catalog, save a
     template, define variables, take the events that have been told, and bring someone on stage
     (`Session.Chore`).  Nobody is brought on stage but whom the call names (`Call.Brings`), no
     template saved but the one that it names (`Call.Saves`), and no behavior added but those that
     it offers (`Call.Adds`).

  2. **The theorem (`Call.chores`)** — every call that runs no scripts and queues no message is a
     number of chores, unless it clears the stage.  So what the single chores keep is kept by all
     these calls.
-/
import BlockStage.Proofs.Session.Renewal

namespace BlockStage

/-! ## Calls -/

namespace Call

/-- A call that neither runs scripts nor queues a message. -/
def Plain : Call → Prop
  | .script _ => False
  | .broadcast _ => False
  | _ => True

/-- Whom a call brings on stage, if it is not refused and does not clear the stage. -/
def Brings (id : String) : Call → Prop
  | .register d => d.id = id
  | .loadEntity e => e.id = id
  | _ => False

/-- Whose template a call saves, if it is not refused and does not clear the stage. -/
def Saves (id : String) : Call → Prop
  | .saveTemplate prototype => prototype = id
  | .loadEntity e => e.id = id
  | _ => False

/-- The behaviors that a call may add to catalogs: a program is compiled with identities from the
    next free one on. -/
def Adds (b : Behavior) : Call → Prop
  | .addBehaviors _ c => b ∈ c.behaviors
  | .loadEntity e => ∃ first, b ∈ (e.program.compile first).behaviors
  | .loadScene scene => ∃ e ∈ scene.entities, ∃ first, b ∈ (e.program.compile first).behaviors
  | _ => False

end Call

/-- What is put together from tricks is a number of tricks, also if it breaks off. -/
theorem Play.weaving_tricks :
    Play.Weaving fun {α} (p : Play α) => ∀ s, Session.Tricks s (p.last s) := by
  refine .of_attempts (last_bind Session.Tricks.trans) fun {α f} hf _ s => ?_
  rw [last_attempt]
  exact hf.tricks s

namespace Session

/-! ## Chores -/

/-- One change that a host can bring about without running a script, queueing a message or clearing
    the stage; those that it brings on stage and those whose templates it saves are among some
    ids, and what it adds to catalogs is among some behaviors. -/
inductive Chore (brings saves : String → Prop) (adds : Behavior → Prop) :
    Session → Session → Prop where
  | trick {s t : Session} (h : Trick s t) : Chore brings saves adds s t
  | catalog {s : Session} {id : String} {c : Catalog} {bs : List Behavior} (hb : ∀ b ∈ bs, adds b)
    (h : s.catalogs.get? id = some c) :
    Chore brings saves adds s { s with catalogs := s.catalogs.insert id (c.registerAll bs).2 }
  | template {s : Session} {id : String} (t : Template) (hid : saves id)
    (h : t.catalog = (s.catalogs.get? id).getD .empty) :
    Chore brings saves adds s { s with templates := s.templates.insert id t }
  | define {s : Session} (ds : List VariableDefinition) :
    Chore brings saves adds s (s.defineVariables ds)
  | events {s : Session} : Chore brings saves adds s { s with events := [] }
  | enroll {s t : Session} {d : Spawn Float32} (hd : brings d.id) (h : s.enroll d = .ok t) :
    Chore brings saves adds s t

/-- What lasts as long as no scripts run outlasts chores. -/
theorem Chore.lasting {brings saves : String → Prop} {adds : Behavior → Prop}
    {I : Session → Prop} (hI : Lasting .full I) {s t : Session} (h : Chore brings saves adds s t)
    (hs : I s) : I t := by
  cases h with
  | trick h => exact hI.deed h.feat.deed hs
  | catalog hb h => exact hI.deed (.catalog _ h) hs
  | template t hid h => exact hI.template s _ t hs
  | define ds => exact hI.define s ds hs
  | events => exact hI.events s hs
  | enroll hd h => exact hI.enroll trivial h hs

/-- Any number of chores. -/
def Chores (brings saves : String → Prop) (adds : Behavior → Prop) : Session → Session → Prop :=
  Relation.ReflTransGen (Chore brings saves adds)

namespace Chores

variable {brings saves : String → Prop} {adds : Behavior → Prop} {s t u : Session}

theorem refl (s : Session) : Chores brings saves adds s s := Relation.ReflTransGen.refl

theorem one (h : Chore brings saves adds s t) : Chores brings saves adds s t :=
  Relation.ReflTransGen.single h

theorem trans (h : Chores brings saves adds s t) (k : Chores brings saves adds t u) :
    Chores brings saves adds s u := Relation.ReflTransGen.trans h k

theorem tricks (h : Tricks s t) : Chores brings saves adds s t := by
  induction h with
  | refl => exact .refl s
  | tail _ trick ih => exact ih.trans (.one (.trick trick))

theorem beside (h : s.Beside t) : Chores brings saves adds s t := .tricks (.beside h)

/-! ### Loading -/

theorem saveTemplate {id : String} (hid : saves id) (h : s.saveTemplate id = .ok t) :
    Chores brings saves adds s t := by
  rw [Session.saveTemplate] at h
  split at h
  · cases h
  split at h
  · cases h
  split at h
  · cases h
  · obtain rfl := Except.ok.inj h
    exact .one (.template _ hid rfl)

theorem addBehaviors (s : Session) (id : String) (c : CompiledProgram)
    (hb : ∀ b ∈ c.behaviors, adds b) : Chores brings saves adds s (s.addBehaviors id c).2 := by
  have noted : ∀ (l : List Diagnostic) (s : Session),
      Tricks s (l.foldl (fun s d => s.note .error (id ++ ": " ++ d.line)) s) := by
    intro l
    induction l with
    | nil => exact .refl
    | cons d l ih => exact fun s => (Tricks.beside (s.beside_note _ _)).trans (ih _)
  rw [Session.addBehaviors]
  dsimp only
  split
  · exact .tricks (noted _ s)
  · rename_i catalog known
    exact (tricks (noted _ s)).trans (.one (.catalog hb known))

theorem costumesOf (entity : String) (ids : List String) (s : Session) :
    Chores brings saves adds s (s.costumesOf entity ids).2 := by
  induction ids generalizing s with
  | nil => exact .refl s
  | cons id rest ih =>
    rw [Session.costumesOf]
    split
    · exact ih s
    · exact (beside (s.beside_note _ _)).trans (ih _)

theorem loadEntity (s : Session) (e : EntityDescription) (he : brings e.id) (hid : saves e.id)
    (hb : ∀ first, ∀ b ∈ (e.program.compile first).behaviors, adds b) :
    Chores brings saves adds s (s.loadEntity e).2 := by
  have dressed : Chores brings saves adds s (s.costumesOf e.id e.costumes).2 := costumesOf _ _ s
  rw [Session.loadEntity]
  dsimp only
  split
  · exact dressed
  rename_i enrolled ht
  have there := dressed.trans (.one (.enroll he ht))
  have compiled : enrolled.Beside (enrolled.compile e.program).2 := ⟨⟨rfl, rfl⟩, rfl, rfl⟩
  have added := (there.trans (.beside compiled)).trans
    (addBehaviors _ e.id (enrolled.compile e.program).1 (hb enrolled.nextBehavior))
  split
  · rename_i h
    rw [h] at added
    exact added
  rename_i h
  rw [h] at added
  split
  · exact added
  · rename_i saved
    exact added.trans (saveTemplate hid saved)

theorem loadEntities (es : List EntityDescription)
    (hb : ∀ e ∈ es, ∀ first, ∀ b ∈ (e.program.compile first).behaviors, adds b) (s : Session) :
    Chores (fun _ => True) (fun _ => True) adds s (s.loadEntities es).2 := by
  induction es generalizing s with
  | nil => exact .refl s
  | cons e rest ih =>
    obtain ⟨first, hb⟩ := List.forall_mem_cons.mp hb
    have loaded : Chores (fun _ => True) (fun _ => True) adds s (s.loadEntity e).2 :=
      loadEntity s e trivial trivial first
    rw [Session.loadEntities]
    split
    · rename_i t h
      rw [h] at loaded
      exact loaded.trans (ih hb t)
    · exact loaded

/-- Loading a scene is a number of chores once everything is ready for its entities. -/
theorem loadScene (s : Session) (scene : Scene) :
    Chores (fun _ => True) (fun _ => True) ((Call.loadScene scene).Adds ·) (s.stocked scene)
      (s.loadScene scene).2 := by
  have loaded : Chores (fun _ => True) (fun _ => True) ((Call.loadScene scene).Adds ·)
      (s.stocked scene) ((s.stocked scene).loadEntities scene.entities).2 :=
    loadEntities scene.entities (fun e he first b hb => ⟨e, he, first, hb⟩) _
  rw [stocked] at loaded ⊢
  rw [Session.loadScene]
  dsimp only
  split
  · rename_i h
    rw [h] at loaded
    exact loaded.trans (.beside (Session.beside_note _ _ _))
  · exact loaded

end Chores

end Session

/-! ## The theorem -/

open Session in
/-- **What a host does besides running scripts, queueing messages and clearing the stage is a number
    of chores.** -/
theorem Call.chores {c : Call} (hc : c.Plain) (hk : c.KeepsScene) (s : Session) :
    Chores (c.Brings ·) (c.Saves ·) (c.Adds ·) s (c.run.last s) := by
  have tricks : ∀ {p : Play Unit}, (∀ s, Tricks s (p.last s)) →
      Chores (c.Brings ·) (c.Saves ·) (c.Adds ·) s (p.last s) :=
    fun hp => .tricks (hp s)
  have beside : ∀ {f : Session → Session}, (∀ s : Session, s.Beside (f s)) →
      Chores (c.Brings ·) (c.Saves ·) (c.Adds ·) s ((Play.change f).last s) :=
    fun hf => .beside (hf s)
  have skill : ∀ {f : Session → Session}, (Skill fun s => ((), f s)) →
      Chores (c.Brings ·) (c.Saves ·) (c.Adds ·) s ((Play.change f).last s) :=
    fun hf => .tricks (hf.tricks s)
  cases c with
  | script c => exact hc.elim
  | broadcast message => exact hc.elim
  | loadScene scene => exact hk.elim
  | cleanup => exact hk.elim
  | entity id c => exact skill (skill_entityCall id c)
  | playSound id key =>
    exact tricks (Play.weaving_tricks.discarded (Play.weaving_tricks.playSound id key))
  | loadEntity e => exact .loadEntity s e rfl rfl fun first b hb => ⟨first, hb⟩
  | register d =>
    show Chores _ _ _ s (Call.orSame s (s.enroll d))
    cases ht : s.enroll d with
    | error e => exact .refl s
    | ok t => exact .one (.enroll rfl ht)
  | saveTemplate id =>
    show Chores _ _ _ s (Call.orSame s (s.saveTemplate id))
    cases ht : s.saveTemplate id with
    | error e => exact .refl s
    | ok t => exact .saveTemplate rfl ht
  | compile p => exact beside fun s => ⟨⟨rfl, rfl⟩, rfl, rfl⟩
  | addBehaviors id c => exact .addBehaviors s id c fun _ hb => hb
  | defineVariables l => exact .one (.define l)
  | addCostumes l => exact beside fun s => ⟨⟨rfl, rfl⟩, rfl, rfl⟩
  | addSounds l => exact beside fun s => ⟨⟨rfl, rfl⟩, rfl, rfl⟩
  | stopAll => exact skill skill_stopAll
  | keyUp raw =>
    refine tricks (Play.weaving_tricks.discarded ?_)
    rw [Play.keyUp]
    cases Key.parse? raw with
    | none => exact Play.weaving_tricks.pure false
    | some key =>
      have released : Skill fun s => ((), { s with input := s.input.release key }) :=
        skill_beside _ (fun _ => ⟨⟨rfl, rfl⟩, rfl, rfl⟩) (fun _ _ => rfl) fun _ => ⟨rfl, .refl _⟩
      exact Play.weaving_tricks.bind (Play.weaving_tricks.skilled released) fun _ =>
        Play.weaving_tricks.pure true
  | pointerMoved p => exact beside fun s => ⟨⟨rfl, rfl⟩, rfl, rfl⟩
  | pointerUp => exact beside fun s => ⟨⟨rfl, rfl⟩, rfl, rfl⟩
  | completeSound handle => exact beside fun s => ⟨⟨rfl, rfl⟩, rfl, rfl⟩
  | stopAllSounds => exact skill skill_stopAllSounds
  | requestScene scene => exact skill (skill_requestScene scene)
  | resetTimer => exact skill skill_resetTimer
  | resizeCanvas width height => exact .tricks (.one (.stage (s.stage.calm_resizeCanvas width height)))
  | takeScene => exact beside fun s => ⟨⟨rfl, rfl⟩, rfl, rfl⟩
  | takeRequests => exact beside fun s => ⟨⟨rfl, rfl⟩, rfl, rfl⟩
  | takeEvents => exact .one .events
  | takeJournal => exact beside fun s => ⟨⟨rfl, rfl⟩, rfl, rfl⟩

/-- A call that clears the stage stops everything before. -/
theorem Call.idle_of_clears {c : Call} (hc : ¬c.KeepsScene) (s : Session) :
    (c.run.last s).running = false := by
  cases c with
  | loadScene scene => exact (Session.loads_loadScene s scene).running.trans s.running_stopAll
  | cleanup => exact s.running_stopAll
  | _ => exact absurd trivial hc

end BlockStage
