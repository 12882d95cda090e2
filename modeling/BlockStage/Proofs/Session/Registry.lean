/-
  The registry: who is on stage, whose behaviors are kept, and whose variables.

  1. **Specification (`Session.Aligned`)** — the stage lists each id once and has a handle for just
     these ids, each handle leads to the actor that bears the id and no actor is left over, the
     catalogs and the local variables are kept for exactly these ids, and every actor wears a
     costume that it has.

  2. **The invariant (`Session.Registry`)** — three places are changed one by one by registering,
     cloning, deleting and clearing.  Of the stage its order is needed (`Stage.Orderly`); the other
     two agree with its list of ids.

  3. **The crux** — each step changes all three alike (`stable_registry`): spawning takes an id that
     nobody bears, so the catalog and the local map that are made with it are new as well; scripts
     write only to what is already there.
-/
import BlockStage.Proofs.Session.Stable

namespace BlockStage

/-! ## Local variables -/

namespace VariableStore

variable (s : VariableStore)

theorem locals_addLocals (entity j : String) :
    (s.addLocals entity).locals.contains j = (j == entity || s.locals.contains j) := by
  rw [addLocals]
  split
  · rename_i known
    by_cases h : j = entity
    · rw [h, known, beq_self_eq_true, Bool.true_or]
    · rw [beq_eq_false_iff_ne.mpr h, Bool.false_or]
  · exact Table.contains_insert _ _ _ _

theorem locals_copyLocals (source target j : String) :
    (s.copyLocals source target).locals.contains j = (j == target || s.locals.contains j) :=
  Table.contains_insert _ _ _ _

/-- Writing makes no local map. -/
theorem locals_set (entity key : String) (v : Value) (j : String) :
    (s.set entity key v).2.locals.contains j = s.locals.contains j := by
  rw [set]
  split
  · rfl
  dsimp only
  split
  · rfl
  split
  · rename_i values known
    rw [Table.contains_insert]
    by_cases h : j = entity
    · rw [h, Table.contains, known]
      exact Bool.or_true _
    · rw [beq_eq_false_iff_ne.mpr h, Bool.false_or]
  · rfl

theorem locals_defineAll (ds : List VariableDefinition) :
    (s.defineAll ds).locals = s.locals := by
  rw [defineAll]
  induction ds generalizing s with
  | nil => rfl
  | cons d ds ih => exact ih (s.define d)

theorem locals_forgetValues (j : String) :
    s.forgetValues.locals.contains j = s.locals.contains j := by
  rw [Bool.eq_iff_iff, ← Table.mem_keys, ← Table.mem_keys, Table.keys, Table.keys, forgetValues,
    List.map_map]
  rfl

end VariableStore

namespace Session

/-- An entity that is deleted leaves the stage, and nothing of it is kept but its template. -/
theorem deleteEntity_of_find? {s : Session} {id : String} {h : Handle} (hs : s.stage.Orderly)
    (hf : s.stage.find? id = some h) :
    ∃ stage, s.stage.Despawned id h stage ∧ (s.deleteEntity id).2 =
      ({ s with
          stage := stage
          catalogs := s.catalogs.erase id
          store := (s.store.dropLocals id).2 }.emit (.deleted id)).note .action
        (id ++ " deleted") := by
  obtain ⟨gone, there⟩ := Stage.despawned_of_find? hf
  obtain ⟨a, ha, -⟩ := hs.bears id h hf
  rw [ha, Option.isSome_some] at there
  refine ⟨(s.stage.despawn id).2, gone, ?_⟩
  rw [deleteEntity, ← Prod.eta (s.stage.despawn id), there]

/-- Who is to be deleted is not on stage, and nothing happens, or leaves. -/
theorem deleteEntity_cases {s : Session} (hs : s.stage.Orderly) (id : String) :
    (s.stage.find? id = none ∧ (s.deleteEntity id).2 = s) ∨
      ∃ h stage, s.stage.Despawned id h stage ∧ (s.deleteEntity id).2 =
        ({ s with
            stage := stage
            catalogs := s.catalogs.erase id
            store := (s.store.dropLocals id).2 }.emit (.deleted id)).note .action
          (id ++ " deleted") := by
  cases hf : s.stage.find? id with
  | none =>
    rw [deleteEntity, Stage.despawn, hf]
    exact .inl ⟨rfl, rfl⟩
  | some h => exact .inr ⟨h, deleteEntity_of_find? hs hf⟩

/-- **What deeds do to the cast**: nothing, or someone has left. -/
theorem Deed.cast {s t : Session} (h : Deed s t) (hs : s.stage.Orderly) :
    s.stage.SameCast t.stage ∨ ∃ id h, s.stage.Despawned id h t.stage := by
  cases h with
  | aside h =>
    rw [h.rest]
    exact .inl (.refl _)
  | stage h => exact .inl h
  | write id key v => exact .inl (.refl _)
  | catalog d known => exact .inl (.refl _)
  | delete id =>
    rcases deleteEntity_cases hs id with ⟨-, same⟩ | ⟨h, stage, gone, left⟩
    · rw [same]
      exact .inl (.refl _)
    · rw [left]
      exact .inr ⟨id, h, gone⟩
  | stop =>
    rw [stopAll]
    split
    · exact .inl (.refl _)
    · exact .inl (s.stage.sameCast_setAllStopped true)

/-! ## The invariant -/

/-- The stage is in order, and catalogs and local variables are kept for those on it. -/
structure Registry (s : Session) : Prop where
  stage : s.stage.Orderly
  catalogs : ∀ id, s.catalogs.contains id = true ↔ id ∈ s.stage.ids
  locals : ∀ id, s.store.locals.contains id = true ↔ id ∈ s.stage.ids

namespace Registry

/-- Nobody is on an empty stage. -/
theorem empty {s : Session} (stage : s.stage.Orderly) (ids : s.stage.ids = [])
    (catalogs : s.catalogs = .empty) (locals : s.store.locals = .empty) : s.Registry := by
  refine ⟨stage, fun id => ?_, fun id => ?_⟩
  · rw [catalogs, ids]
    exact ⟨fun h => (by cases h), fun h => (by cases h)⟩
  · rw [locals, ids]
    exact ⟨fun h => (by cases h), fun h => (by cases h)⟩

variable {s t : Session}

/-- Someone new is on stage and has a catalog and a local map. -/
theorem spawned (hs : s.Registry) {d : Spawn Float32} {h : Handle} {stage : Stage Float32}
    (spawned : s.stage.spawn d = .ok (h, stage)) (ht : t.stage = stage)
    (catalogs : ∀ j, t.catalogs.contains j = (j == d.id || s.catalogs.contains j))
    (locals : ∀ j, t.store.locals.contains j = (j == d.id || s.store.locals.contains j)) :
    t.Registry := by
  have new := Stage.spawned_of_spawn hs.stage.fresh spawned
  have ids : ∀ j, j ∈ t.stage.ids ↔ j = d.id ∨ j ∈ s.stage.ids := by
    intro j
    rw [ht, new.ids, List.mem_append, List.mem_singleton, or_comm]
  refine ⟨ht ▸ new.orderly hs.stage, fun j => ?_, fun j => ?_⟩
  · rw [catalogs, Bool.or_eq_true, beq_iff_eq, hs.catalogs, ids]
  · rw [locals, Bool.or_eq_true, beq_iff_eq, hs.locals, ids]

/-- Someone has left the stage, and the catalog and the local map with them. -/
theorem deleteEntity (hs : s.Registry) (id : String) : (s.deleteEntity id).2.Registry := by
  rcases deleteEntity_cases hs.stage id with ⟨-, same⟩ | ⟨h, stage, gone, left⟩
  · rw [same]
    exact hs
  · rw [left]
    refine ⟨gone.orderly hs.stage, fun j => ?_, fun j => ?_⟩
    · show (s.catalogs.erase id).contains j = true ↔ j ∈ stage.ids
      rw [Table.contains_erase, Bool.and_eq_true, Bool.not_eq_true', beq_eq_false_iff_ne,
        hs.catalogs, gone.mem_ids]
    · show (s.store.locals.erase id).contains j = true ↔ j ∈ stage.ids
      rw [Table.contains_erase, Bool.and_eq_true, Bool.not_eq_true', beq_eq_false_iff_ne,
        hs.locals, gone.mem_ids]

theorem sameCast (hs : s.Registry) {stage : Stage Float32} (h : s.stage.SameCast stage) :
    ({ s with stage := stage } : Session).Registry :=
  ⟨hs.stage.sameCast h, h.ids ▸ hs.catalogs, h.ids ▸ hs.locals⟩

theorem deed (h : Deed s t) (hs : s.Registry) : t.Registry := by
  cases h with
  | aside h =>
    rw [h.rest]
    exact ⟨hs.stage, hs.catalogs, hs.locals⟩
  | stage h => exact hs.sameCast h
  | write id key v =>
    refine ⟨hs.stage, hs.catalogs, fun j => ?_⟩
    show (s.store.set id key v).2.locals.contains j = true ↔ _
    rw [VariableStore.locals_set, hs.locals]
  | @catalog id c d known =>
    refine ⟨hs.stage, fun j => ?_, hs.locals⟩
    show (s.catalogs.insert id d).contains j = true ↔ _
    -- a catalog is only rewritten where there is one, so its key is an id on stage already
    have there : s.catalogs.contains id = true := by rw [Table.contains, known, Option.isSome_some]
    rw [Table.contains_insert, Bool.or_eq_true, beq_iff_eq, hs.catalogs, or_iff_right_iff_imp]
    rintro rfl
    exact (hs.catalogs _).mp there
  | delete id => exact hs.deleteEntity id
  | stop =>
    rw [stopAll]
    split
    · exact hs
    · have same := hs.sameCast (s.stage.sameCast_setAllStopped true)
      exact ⟨same.stage, same.catalogs, same.locals⟩

theorem clone {r : Except SessionError String} (hs : s.Registry) (h : CloneStep s r t) :
    t.Registry := by
  cases h with
  | refused serial h =>
    rw [h.rest]
    exact ⟨hs.stage, hs.catalogs, hs.locals⟩
  | made room known spawned locals rest =>
    rw [rest.rest]
    refine hs.spawned spawned rfl (fun j => ?_) fun j => ?_
    · rw [cloneSpawn_id]
      exact Table.contains_insert _ _ _ _
    · rw [cloneSpawn_id]
      rcases locals with rfl | rfl
      · exact s.store.locals_copyLocals _ _ j
      · exact s.store.locals_addLocals _ j

end Registry

/-- **Every step keeps the registry.** -/
theorem stable_registry : Stable .full Registry where
  deed := Registry.deed
  template _ _ _ hs := ⟨hs.stage, hs.catalogs, hs.locals⟩
  upkeep h hs := by
    have same := hs.sameCast h.stage
    rw [h.rest]
    exact ⟨same.stage, same.catalogs, same.locals⟩
  request s source hs := hs.clone (s.requestClone_step source)
  queue _ _ _ hs := ⟨hs.stage, hs.catalogs, hs.locals⟩
  enroll {s t d} _ ht hs := by
    obtain ⟨x, stage, spawned, rfl⟩ := enroll_ok ht
    exact hs.spawned spawned rfl (fun j => Table.contains_insert _ _ _ _)
      fun j => s.store.locals_addLocals _ j
  clear _ s hs := .empty hs.stage.clear rfl rfl rfl
  define s l hs := by
    refine ⟨hs.stage, hs.catalogs, ?_⟩
    show ∀ id, (s.store.defineAll l).locals.contains id = true ↔ _
    rw [VariableStore.locals_defineAll]
    exact hs.locals
  forget _ s hs := by
    refine ⟨hs.stage, hs.catalogs, fun j => ?_⟩
    show s.store.forgetValues.locals.contains j = true ↔ _
    rw [VariableStore.locals_forgetValues]
    exact hs.locals j
  events _ hs := ⟨hs.stage, hs.catalogs, hs.locals⟩

/-! ## Alignment -/

/-- The stage, the catalogs and the variables agree about who is there, and everyone is dressed. -/
structure Aligned (s : Session) : Prop where
  once : s.stage.ids.Nodup
  listed : ∀ id, id ∈ s.stage.ids ↔ id ∈ s.stage.index.keys
  bears : ∀ id h, s.stage.index.get? id = some h → ∃ a, s.stage.actors.get? h = some a ∧ a.id = id
  named : ∀ h a, s.stage.actors.get? h = some a → s.stage.index.get? a.id = some h
  catalogs : ∀ id, id ∈ s.catalogs.keys ↔ id ∈ s.stage.ids
  locals : ∀ id, id ∈ s.store.locals.keys ↔ id ∈ s.stage.ids
  dressed : ∀ h a, s.stage.actors.get? h = some a → a.look.costumes ≠ [] →
    a.look.current < a.look.costumes.length

theorem Registry.aligned {s : Session} (hs : s.Registry) : s.Aligned where
  once := hs.stage.ids
  listed id := (hs.stage.listed id).trans Table.mem_keys.symm
  bears := hs.stage.bears
  named := hs.stage.named
  catalogs id := Table.mem_keys.trans (hs.catalogs id)
  locals id := Table.mem_keys.trans (hs.locals id)
  dressed h a ha := hs.stage.dressed (h, a) (Table.mem_of_get? ha)

/-- Between calls the registry is in order. -/
theorem registry_of_visited {s : Session} (h : Visited s) : s.Registry := by
  refine stable_registry.visited (fun config g budget => ?_) h
  exact .empty (.new _ _) rfl rfl rfl

/-- **The registry is aligned between calls**, whichever calls came before, whether they returned,
    were refused or broke off, and whatever their scripts did. -/
theorem aligned_of_visited {s : Session} (h : Visited s) : s.Aligned :=
  (registry_of_visited h).aligned

/-- An entity is registered, not a second time, made a template, cloned, and deleted. -/
def outlived : Session :=
  (fresh .usual (Generator.ofSeed 0) 0).after
    [.register (Spawn.new "a"), .register (Spawn.new "a"), .saveTemplate "a",
      .script (.createClone "a"), .entity "a" .delete]

theorem aligned_outlived : outlived.stage.ids = ["a__clone_1"] ∧ outlived.Aligned :=
  ⟨by decide +kernel, aligned_of_visited ((Visited.fresh _ _ _).after _)⟩

end Session

end BlockStage
