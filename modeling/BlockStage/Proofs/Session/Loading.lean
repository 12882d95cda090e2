/-
  Loading, seen from the tasks.

  Whoever a host brings on stage, whatever is saved as a template, and whatever a scene takes with
  it when it is cleared: none of this looks at the tasks that are under way, nor at the clone budget.
  So loading does the same under every disguise, step by step up to a whole scene
  (`Session.apart_loadScene`), and so does every call about one entity (`Session.skill_entityCall`).
-/
import BlockStage.Proofs.Session.Deed

namespace BlockStage

namespace Session

/-! ## Entities -/

/-- Bringing someone on stage, unless it is refused, changes three places and is told of. -/
theorem enroll_ok {s t : Session} {d : Spawn Float32} (h : s.enroll d = .ok t) :
    ∃ x stage, s.stage.spawn d = .ok (x, stage) ∧
      t = { s with
        stage := stage
        catalogs := s.catalogs.insert d.id .empty
        store := s.store.addLocals d.id }.emit (.registered d.id) := by
  rw [enroll] at h
  split at h
  · cases h
  · rename_i spawned
    exact ⟨_, _, spawned, (Except.ok.inj h).symm⟩

theorem enroll_under (s : Session) (d : Disguise) (e : Spawn Float32) :
    (s.under d).enroll e = (s.enroll e).map (·.under d) := by
  simp only [enroll, stage_under]
  split <;> rfl

theorem saveTemplate_under (s : Session) (d : Disguise) (id : String) :
    (s.under d).saveTemplate id = (s.saveTemplate id).map (·.under d) := by
  rw [saveTemplate, saveTemplate, handle?_under, stage_under]
  cases s.handle? id with
  | none => rfl
  | some h =>
    dsimp only
    by_cases clone : s.stage.isClone h = true
    · rw [if_pos clone, if_pos clone]
      rfl
    · rw [if_neg clone, if_neg clone]
      cases s.stage.spawnOf? h <;> rfl

theorem apart_addBehaviors (id : String) (c : CompiledProgram) :
    Apart fun s => s.addBehaviors id c := by
  have noted : ∀ (l : List Diagnostic) (s : Session) (d : Disguise),
      l.foldl (fun s x => s.note .error (id ++ ": " ++ x.line)) (s.under d)
        = (l.foldl (fun s x => s.note .error (id ++ ": " ++ x.line)) s).under d := by
    intro l
    induction l with
    | nil => exact fun _ _ => rfl
    | cons x l ih => exact fun s d => ih (s.note .error (id ++ ": " ++ x.line)) d
  intro s d
  simp only [addBehaviors, noted, catalogs_under]
  split <;> rfl

theorem apart_costumesOf (entity : String) (ids : List String) :
    Apart fun s => s.costumesOf entity ids := by
  intro s d
  dsimp only
  induction ids generalizing s with
  | nil => rfl
  | cons id rest ih =>
    have same : (s.under d).costumes.get? id = s.costumes.get? id := rfl
    rw [costumesOf, costumesOf, same]
    cases s.costumes.get? id with
    | some c => simp only [ih]
    | none => exact ih (s.note .error (entity ++ ": unknown costume '" ++ id ++ "'"))

theorem apart_loadEntity (e : EntityDescription) : Apart fun s => s.loadEntity e := by
  intro s d
  simp only [loadEntity, apart_costumesOf e.id e.costumes s d, enroll_under]
  -- each step of loading may be refused, and is refused under a disguise just the same
  cases (s.costumesOf e.id e.costumes).2.enroll (spawnOf e (s.costumesOf e.id e.costumes).1) with
  | error _ => rfl
  | ok t =>
    have added := apart_addBehaviors e.id (t.compile e.program).1 (t.compile e.program).2 d
    have same : (t.under d).compile e.program
        = ((t.compile e.program).1, (t.compile e.program).2.under d) := rfl
    simp only [Except.map, same, added]
    rcases (t.compile e.program).2.addBehaviors e.id (t.compile e.program).1 with ⟨_ | _, u⟩
    · rfl
    · simp only [saveTemplate_under]
      cases u.saveTemplate e.id <;> rfl

theorem apart_loadEntities (es : List EntityDescription) : Apart fun s => s.loadEntities es := by
  intro s d
  dsimp only
  induction es generalizing s with
  | nil => rfl
  | cons e rest ih =>
    have loaded := apart_loadEntity e s d
    dsimp only at loaded
    rw [loadEntities, loadEntities, loaded]
    rcases s.loadEntity e with ⟨_ | _, t⟩
    · rfl
    · exact ih t

/-! ## What loading changes -/

/-- The session with all that loading an entity changes taken from another. -/
def withLoaded (s t : Session) : Session :=
  { s with
    stage := t.stage
    store := t.store
    catalogs := t.catalogs
    templates := t.templates
    journal := t.journal
    events := t.events
    nextBehavior := t.nextBehavior }

/-- Only what loading changes has changed: no task, no queue, no input and no clock. -/
def Loads (s t : Session) : Prop := t = s.withLoaded t

theorem Loads.trans {s t u : Session} (h : s.Loads t) (k : t.Loads u) : s.Loads u := by
  have same : t.withLoaded u = (s.withLoaded t).withLoaded u := congrArg (withLoaded · u) h
  exact Eq.trans k same

theorem loads_enroll {s t : Session} {d : Spawn Float32} (h : s.enroll d = .ok t) : s.Loads t := by
  obtain ⟨x, stage, -, rfl⟩ := enroll_ok h
  rfl

theorem loads_saveTemplate {s t : Session} {id : String} (h : s.saveTemplate id = .ok t) :
    s.Loads t := by
  rw [saveTemplate] at h
  split at h
  · cases h
  split at h
  · cases h
  split at h
  · cases h
  · obtain rfl := Except.ok.inj h
    rfl

theorem loads_addBehaviors (s : Session) (id : String) (c : CompiledProgram) :
    s.Loads (s.addBehaviors id c).2 := by
  have noted : ∀ (l : List Diagnostic) (s : Session),
      s.Loads (l.foldl (fun s d => s.note .error (id ++ ": " ++ d.line)) s) := by
    intro l
    induction l with
    | nil => exact fun _ => rfl
    | cons d l ih => exact fun s => Loads.trans (t := s.note .error _) rfl (ih _)
  rw [addBehaviors]
  dsimp only
  split
  · exact noted c.diagnostics s
  · exact (noted c.diagnostics s).trans rfl

theorem loads_costumesOf (entity : String) (ids : List String) (s : Session) :
    s.Loads (s.costumesOf entity ids).2 := by
  induction ids generalizing s with
  | nil => rfl
  | cons id rest ih =>
    rw [costumesOf]
    split
    · exact ih s
    · exact Loads.trans (t := s.note .error _) rfl (ih _)

theorem loads_loadEntity (s : Session) (e : EntityDescription) : s.Loads (s.loadEntity e).2 := by
  have dressed := loads_costumesOf e.id e.costumes s
  rw [loadEntity]
  dsimp only
  split
  · exact dressed
  rename_i enrolled ht
  have there := dressed.trans (loads_enroll ht)
  have compiled : enrolled.Loads (enrolled.compile e.program).2 := rfl
  have added := (there.trans compiled).trans
    (loads_addBehaviors _ e.id (enrolled.compile e.program).1)
  split
  · rename_i h
    rw [h] at added
    exact added
  rename_i h
  rw [h] at added
  split
  · exact added
  · rename_i saved
    exact added.trans (loads_saveTemplate saved)

theorem loads_loadEntities (es : List EntityDescription) (s : Session) :
    s.Loads (s.loadEntities es).2 := by
  induction es generalizing s with
  | nil => rfl
  | cons e rest ih =>
    have loaded := loads_loadEntity s e
    rw [loadEntities]
    split
    · rename_i t h
      rw [h] at loaded
      exact loaded.trans (ih t)
    · exact loaded

/-! ## Scenes -/

theorem stopAll_under (s : Session) (d : Disguise) : (s.under d).stopAll = s.stopAll.under d :=
  congrArg Prod.snd (skill_stopAll.apart s d)

theorem cleanup_under (s : Session) (d : Disguise) : (s.under d).cleanup = s.cleanup.under d := by
  rw [cleanup, cleanup, stopAll_under]
  rfl

theorem apart_loadScene (scene : Scene) : Apart fun s => s.loadScene scene := by
  intro s d
  -- the session with an empty stage and all that the entities of the scene refer to
  let stocked : Session := (({ s.stopAll.clearStage with pendingScene := none }.defineVariables
    scene.definitions).addCostumes scene.costumes).addSounds scene.sounds
  have loaded := apart_loadEntities scene.entities stocked d
  have same : (({ (s.under d).stopAll.clearStage with pendingScene := none }.defineVariables
      scene.definitions).addCostumes scene.costumes).addSounds scene.sounds = stocked.under d := by
    rw [stopAll_under]
    rfl
  dsimp only at loaded ⊢
  simp only [loadScene, same, loaded]
  rcases stocked.loadEntities scene.entities with ⟨_ | _, t⟩ <;> rfl

/-! ## Calls about one entity -/

/-- What a host can do to an entity is what scripts can do. -/
theorem skill_entityCall (id : String) (c : EntityCall) : Skill fun s => ((), c.apply id s) := by
  cases c with
  | moveSteps steps => exact (skill_moveSteps id steps).change
  | turn degrees => exact (skill_turn id degrees).change
  | pointInDirection degrees => exact (skill_pointInDirection id degrees).change
  | pointTowards target => exact (skill_pointTowards id target).change
  | goTo x y => exact (skill_goTo id x y).change
  | goToTarget target => exact (skill_goToTarget id target).change
  | changePosition offset => exact (skill_changePosition id offset).change
  | beginGlide seconds goal => exact (skill_beginGlide id seconds goal).change
  | enablePhysics => exact (skill_enablePhysics id).change
  | setVelocity v => exact (skill_setVelocity id v).change
  | setGravityScale scale => exact (skill_setGravityScale id scale).change
  | setVisible visible => exact (skill_setVisible id visible).change
  | switchCostume key => exact (skill_switchCostume id key).change
  | nextCostume => exact (skill_nextCostume id).change
  | setScale scale => exact (skill_setScale id scale).change
  | changeScale delta => exact (skill_changeScale id delta).change
  | setDepth depth => exact (skill_setDepth id depth).change
  | setVariable key v => exact (skill_setVariable id key v).change
  | changeVariable key delta => exact (skill_changeVariable id key delta).change
  | attach parent => exact (skill_attach id parent).change
  | detach => exact (skill_detach id).change
  | stop => exact (skill_stopEntity id).change
  | delete => exact (skill_deleteEntity id).change

end Session

end BlockStage
