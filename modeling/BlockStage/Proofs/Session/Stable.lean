/-
  Invariants of sessions: what stays true whatever a host calls.

  1. **Steps** — what one step of a session can do is a deed of a script, upkeep of the game loop, a
     request for a clone, a move in the queue of clones, or one of a few things that only hosts do.
     Some properties last only as long as hosts keep to rules about whom they bring on stage and
     whether they clear it (`Session.Licence`).  A property that each of the steps keeps under a
     licence is `Session.Stable`.

  2. **The crux** — a property that single steps keep is a thorough property of programs
     (`Stable.thorough`), so it goes through every script, every delivery and every round, and
     through making clones (`Stable.createClone`).

  3. **Runs** — a stable property that holds of a fresh session holds of every session a host can
     see, also after calls that broke off (`Stable.visited`, `Stable.visitedBy`).
-/
import BlockStage.Proofs.Session.Clone
import BlockStage.Proofs.Session.Loading
import BlockStage.Proofs.Session.Round

namespace BlockStage

/-- A step after which a property holds again, whether or not the step breaks off. -/
def Play.Keeps (I : Session → Prop) {α : Type} (p : Play α) : Prop := ∀ s, I s → I (p.last s)

namespace Session

/-! ## Licences -/

/-- What a host is allowed to do: whom it may bring on stage, and whether it may clear the stage. -/
structure Licence where
  admits : Spawn Float32 → Prop
  clears : Prop

/-- The licence to do everything. -/
def Licence.full : Licence := ⟨fun _ => True, True⟩

end Session

/-- Does a call keep to a licence? -/
def Call.Within (l : Session.Licence) : Call → Prop
  | .loadScene scene =>
    l.clears ∧ ∀ e ∈ scene.entities, ∀ costumes, l.admits (Session.spawnOf e costumes)
  | .loadEntity e => ∀ costumes, l.admits (Session.spawnOf e costumes)
  | .register d => l.admits d
  | .cleanup => l.clears
  | _ => True

theorem Call.within_full (c : Call) : c.Within .full := by
  cases c with
  | loadScene scene => exact ⟨trivial, fun _ _ _ => trivial⟩
  | loadEntity e => exact fun _ => trivial
  | _ => trivial

namespace Session

/-- A property that no call within a licence can make false as long as no scripts run. -/
structure Lasting (l : Licence) (I : Session → Prop) : Prop where
  deed : ∀ {s t}, Deed s t → I s → I t
  template : ∀ s id t, I s → I { s with templates := s.templates.insert id t }
  enroll : ∀ {s t d}, l.admits d → s.enroll d = .ok t → I s → I t
  clear : l.clears → ∀ s, I s → I s.clearStage
  define : ∀ s ds, I s → I (s.defineVariables ds)
  forget : l.clears → ∀ s, I s → I { s with store := s.store.forgetValues }
  events : ∀ s, I s → I { s with events := [] }

namespace Lasting

variable {l : Licence} {I : Session → Prop} (hI : Lasting l I)
include hI

theorem deeds {s t : Session} (h : Deeds s t) (hs : I s) : I t := h.keep (fun _ _ => hI.deed) hs

theorem aside {s t : Session} (h : s.Aside t) (hs : I s) : I t := hI.deed (.aside h) hs

/-! ## Loading -/

theorem saveTemplate {s t : Session} {id : String} (ht : s.saveTemplate id = .ok t) (hs : I s) :
    I t := by
  rw [Session.saveTemplate] at ht
  split at ht
  · cases ht
  split at ht
  · cases ht
  split at ht
  · cases ht
  · obtain rfl := Except.ok.inj ht
    exact hI.template s id _ hs

theorem addBehaviors (s : Session) (id : String) (c : CompiledProgram) (hs : I s) :
    I (s.addBehaviors id c).2 := by
  have noted : ∀ (l : List Diagnostic) (s : Session), I s →
      I (l.foldl (fun s d => s.note .error (id ++ ": " ++ d.line)) s) := by
    intro l
    induction l with
    | nil => exact fun _ hs => hs
    | cons d l ih => exact fun s hs => ih _ (hI.aside (s.aside_note _ _) hs)
  rw [Session.addBehaviors]
  dsimp only
  split
  · exact noted _ s hs
  · rename_i catalog known
    exact hI.deed (.catalog _ known) (noted _ s hs)

theorem costumesOf (entity : String) (ids : List String) (s : Session) (hs : I s) :
    I (s.costumesOf entity ids).2 := by
  induction ids generalizing s with
  | nil => exact hs
  | cons id rest ih =>
    rw [Session.costumesOf]
    split
    · exact ih s hs
    · exact ih _ (hI.aside (s.aside_note _ _) hs)

theorem loadEntity (s : Session) (e : EntityDescription)
    (he : ∀ costumes, l.admits (spawnOf e costumes)) (hs : I s) : I (s.loadEntity e).2 := by
  have dressed := hI.costumesOf e.id e.costumes s hs
  rw [Session.loadEntity]
  dsimp only
  split
  · exact dressed
  rename_i enrolled ht
  have there := hI.aside (t := (enrolled.compile e.program).2) ⟨rfl, rfl⟩ (hI.enroll (he _) ht dressed)
  have added := hI.addBehaviors _ e.id (enrolled.compile e.program).1 there
  split
  · rename_i h
    rw [h] at added
    exact added
  rename_i h
  rw [h] at added
  split
  · exact added
  · rename_i saved
    exact hI.saveTemplate saved added

theorem loadEntities (es : List EntityDescription)
    (hes : ∀ e ∈ es, ∀ costumes, l.admits (spawnOf e costumes)) (s : Session) (hs : I s) :
    I (s.loadEntities es).2 := by
  induction es generalizing s with
  | nil => exact hs
  | cons e rest ih =>
    have loaded := hI.loadEntity s e (hes e List.mem_cons_self) hs
    rw [Session.loadEntities]
    split
    · rename_i t h
      rw [h] at loaded
      exact ih (fun e he => hes e (List.mem_cons_of_mem _ he)) t loaded
    · exact loaded

theorem stopAndClear (hl : l.clears) (s : Session) (hs : I s) : I s.stopAll.clearStage :=
  hI.clear hl _ (hI.deed .stop hs)

theorem loadScene (s : Session) (scene : Scene) (hc : (Call.loadScene scene).Within l) (hs : I s) :
    I (s.loadScene scene).2 := by
  have cleared := hI.aside (t := { s.stopAll.clearStage with pendingScene := none }) ⟨rfl, rfl⟩
    (hI.stopAndClear hc.1 s hs)
  have defined := hI.define _ scene.definitions cleared
  -- variables, costumes and sounds come before the entities that use them
  have stocked : I ((({ s.stopAll.clearStage with pendingScene := none }.defineVariables
      scene.definitions).addCostumes scene.costumes).addSounds scene.sounds) := by
    refine hI.aside ?_ defined
    exact ⟨rfl, rfl⟩
  have loaded := hI.loadEntities scene.entities hc.2 _ stocked
  rw [Session.loadScene]
  dsimp only
  split
  · rename_i h
    rw [h] at loaded
    exact hI.aside (aside_note _ _ _) loaded
  · exact loaded

theorem cleanup (hl : l.clears) (s : Session) (hs : I s) : I s.cleanup := by
  have forgotten := hI.events _ (hI.forget hl _ (hI.stopAndClear hl s hs))
  let t : Session :=
    { s.stopAll.clearStage with store := s.stopAll.clearStage.store.forgetValues, events := [] }
  let u : Session :=
    { t with
      input := t.input.clear
      player := t.player.clear
      clock := .start
      pendingScene := none
      journalShared := false }
  have quiet : I u := by
    refine hI.aside ?_ forgotten
    exact ⟨rfl, rfl⟩
  have silent : u.stage.SameCast u.stage.forgetPhases := ⟨rfl, rfl, rfl, rfl, id⟩
  exact hI.deed (@Deed.stage u _ silent) quiet

/-! ## Calls -/

/-- A closed property of programs that every change has which keeps `I` and stands apart is a
    property of all calls within the licence, if those that run scripts have it. -/
theorem call {P : ∀ {α : Type}, Play α → Prop} (hP : Play.Closed @P)
    (change : ∀ {f : Session → Session}, (∀ s, I s → I (f s)) →
      (∀ s d, f (s.under d) = (f s).under d) → P (Play.change f))
    (script : ∀ c : ScriptCall, P c.run) (c : Call) (hc : c.Within l) : P c.run := by
  have acts : ∀ {f : Session → Session}, (Act fun s => ((), f s)) → P (Play.change f) :=
    fun hf => change (fun s hs => hI.deeds (hf.deeds s) hs)
      fun s d => congrArg Prod.snd (hf.apart s d)
  have beside : ∀ {f : Session → Session}, (∀ s : Session, s.Aside (f s)) →
      (∀ s d, f (s.under d) = (f s).under d) → P (Play.change f) :=
    fun hf hd => change (fun s hs => hI.aside (hf s) hs) hd
  cases c with
  | script c => exact script c
  | entity id c => exact acts (skill_entityCall id c).act
  | playSound id key => exact hP.discarded (hP.playSound id key)
  | loadScene scene =>
    exact change (fun s hs => hI.loadScene s scene hc hs)
      fun s d => congrArg Prod.snd (apart_loadScene scene s d)
  | loadEntity e =>
    exact change (fun s hs => hI.loadEntity s e hc hs)
      fun s d => congrArg Prod.snd (apart_loadEntity e s d)
  | register d =>
    refine change (fun s hs => ?_) fun s veil => ?_
    · cases ht : s.enroll d with
      | error e => exact hs
      | ok t => exact hI.enroll hc ht hs
    · rw [enroll_under]
      cases s.enroll d <;> rfl
  | saveTemplate id =>
    refine change (fun s hs => ?_) fun s d => ?_
    · cases ht : s.saveTemplate id with
      | error e => exact hs
      | ok t => exact hI.saveTemplate ht hs
    · rw [saveTemplate_under]
      cases s.saveTemplate id <;> rfl
  | compile p => exact beside (fun s => ⟨rfl, rfl⟩) fun _ _ => rfl
  | addBehaviors id c =>
    exact change (fun s hs => hI.addBehaviors s id c hs)
      fun s d => congrArg Prod.snd (apart_addBehaviors id c s d)
  | defineVariables l => exact change (fun s hs => hI.define s l hs) fun _ _ => rfl
  | addCostumes l => exact beside (fun s => ⟨rfl, rfl⟩) fun _ _ => rfl
  | addSounds l => exact beside (fun s => ⟨rfl, rfl⟩) fun _ _ => rfl
  | stopAll => exact acts skill_stopAll.act
  | cleanup => exact change (hI.cleanup hc) cleanup_under
  | keyUp raw =>
    refine hP.discarded ?_
    rw [Play.keyUp]
    cases Key.parse? raw with
    | none => exact hP.pure false
    | some key =>
      exact hP.bind (beside (fun s => ⟨rfl, rfl⟩) fun _ _ => rfl) fun _ => hP.pure true
  | pointerMoved p => exact beside (fun s => ⟨rfl, rfl⟩) fun _ _ => rfl
  | pointerUp => exact beside (fun s => ⟨rfl, rfl⟩) fun _ _ => rfl
  | broadcast message => exact acts (tidy_broadcast message).act
  | completeSound handle => exact beside (fun s => ⟨rfl, rfl⟩) fun _ _ => rfl
  | stopAllSounds => exact acts skill_stopAllSounds.act
  | requestScene scene => exact acts (skill_requestScene scene).act
  | resetTimer => exact acts skill_resetTimer.act
  | resizeCanvas width height =>
    exact change (fun s hs => hI.deed (.stage ((s.stage.calm_resizeCanvas width height).toSameCast)) hs)
      fun _ _ => rfl
  | takeScene => exact beside (fun s => ⟨rfl, rfl⟩) fun _ _ => rfl
  | takeRequests => exact beside (fun s => ⟨rfl, rfl⟩) fun _ _ => rfl
  | takeEvents => exact change hI.events fun _ _ => rfl
  | takeJournal => exact beside (fun s => ⟨rfl, rfl⟩) fun _ _ => rfl

end Lasting

/-! ## Stable properties -/

/-- A property that no step of a session can make false as long as hosts keep to a licence. -/
structure Stable (l : Licence) (I : Session → Prop) : Prop extends Lasting l I where
  upkeep : ∀ {s t}, s.Upkeep t → I s → I t
  request : ∀ s source, I s → I (s.requestClone source).2
  queue : ∀ s starts draining, I s → I { s with cloneStarts := starts, draining := draining }

namespace Stable

variable {l : Licence} {I : Session → Prop} (hI : Stable l I) {α β : Type}
include hI

/-! ### Programs -/

omit hI in
theorem keeps_get_bind {f : Session → Play α} (hf : ∀ s, Play.Keeps I (f s)) :
    Play.Keeps I (get >>= f) := fun s hs => hf s s hs

omit hI in
theorem keeps_changing {f : Session → α × Session} (hf : ∀ s, I s → I (f s).2) :
    Play.Keeps I (Play.changing f) := hf

omit hI in
theorem keeps_change {f : Session → Session} (hf : ∀ s, I s → I (f s)) :
    Play.Keeps I (Play.change f) := hf

/-- A property that single steps keep is kept by what is put together from them. -/
theorem trying : Play.Trying (Play.Keeps I) where
  bind hp hf := Play.last_bind (R := fun s t => I s → I t) (fun first next => next ∘ first) hp hf
  attempt {α f} hf _ s hs := by
    rw [Play.last_attempt]
    exact hI.deeds (hf.deeds s) hs

theorem thorough : Play.Thorough (Play.Keeps I) :=
  ⟨hI.trying.closed, fun hf _ _ s hs => hI.upkeep (hf s) hs⟩

/-! ### Clones -/

theorem requestClone (source : String) :
    Play.Keeps I (Play.changing fun s => s.requestClone source) :=
  keeps_changing fun s hs => hI.request s source hs

theorem nextCloneStart : Play.Keeps I Play.nextCloneStart := by
  refine keeps_changing fun s hs => ?_
  split
  · exact hs
  · exact hI.queue s _ s.draining hs

theorem createClone (source : String) : Play.Keeps I (Play.createClone source) :=
  hI.thorough.toHousekeeping.createClone hI.requestClone hI.nextCloneStart (fun _ hs => hs)
    keeps_get_bind
    (fun draining => keeps_change fun s hs => hI.queue s s.cloneStarts draining hs) source

/-- A stable property is kept by every call within the licence, also by one that breaks off. -/
theorem call (c : Call) (hc : c.Within l) : Play.Keeps I c.run :=
  hI.toLasting.call hI.thorough.toClosed (fun hf _ => keeps_change hf)
    (hI.thorough.scriptCall hI.trying.tick hI.createClone) c hc

/-- **The rule for invariants**: what holds of fresh sessions and is stable holds between calls, as
    long as these keep to the licence. -/
theorem visitedBy {allowed : Call → Prop} (hl : ∀ c, allowed c → c.Within l)
    (fresh : ∀ config g budget, I (Session.fresh config g budget)) {s : Session}
    (h : VisitedBy allowed s) : I s := by
  induction h with
  | fresh config g budget => exact fresh config g budget
  | call c hc _ ih => exact hI.call c (hl c hc) _ ih

end Stable

/-- The rule for invariants that no host can make false. -/
theorem Stable.visited {I : Session → Prop} (hI : Stable .full I)
    (fresh : ∀ config g budget, I (Session.fresh config g budget)) {s : Session}
    (h : Visited s) : I s := by
  induction h with
  | fresh config g budget => exact fresh config g budget
  | call c _ ih => exact hI.call c c.within_full _ ih

theorem VisitedBy.visited {allowed : Call → Prop} {s : Session} (h : VisitedBy allowed s) :
    Visited s := by
  induction h with
  | fresh config g budget => exact .fresh config g budget
  | call c _ _ ih => exact .call c ih

theorem Reachable.visited {s : Session} (h : Reachable s) : Visited s := by
  induction h with
  | fresh config g budget => exact .fresh config g budget
  | @call s t c _ hc ih =>
    exact Play.last_of_ok hc ▸ ih.call c

end Session

end BlockStage
