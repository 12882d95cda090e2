/-
  Vacant ids: what an entity leaves behind.

  1. **The invariant (`Session.Vacant`)** — once an entity has been deleted, nobody is on stage under
     its id, and nobody comes on stage under it as long as no host says so and no clone is called so.
     A clone is called after a number that is used once, so only an id that reads like that of a
     clone still to be made can be given to one (`Session.Unnamed`).

  2. **The crux (`Vacant.still`)** — the scheduler keeps the tasks of an entity that is gone, and
     looks at them again when their turn comes.  But a script asks before each of its blocks whether
     its entity may run, and so does whoever takes a task up before looking at what it waits for.  So
     at every moment at which the id is vacant nothing is carried out (`Session.Still`).
-/
import BlockStage.Proofs.Session.Course

namespace BlockStage

namespace Session

/-! ## Vacant ids -/

/-- No clone that is still to be made will be called so. -/
def Unnamed (id : String) (s : Session) : Prop :=
  ∀ prototype n, s.cloneSerial < n → cloneName prototype n ≠ id

/-- The id of a clone that has been made is never given to another one. -/
theorem unnamed_cloneName {s : Session} (prototype : String) {n : Nat} (h : n ≤ s.cloneSerial) :
    s.Unnamed (cloneName prototype n) := by
  intro other m later same
  have := (cloneName_inj.mp same).2
  omega

/-- An id without an underscore is never given to a clone. -/
theorem unnamed_of_notMem {id : String} (s : Session) (h : '_' ∉ id.toList) : s.Unnamed id := by
  rintro prototype n - rfl
  rw [toList_cloneName] at h
  exact h (List.mem_append_right _ List.mem_cons_self)

/-- Nobody is on stage under an id, and no clone will be called so. -/
structure Vacant (id : String) (s : Session) : Prop where
  registry : s.Registry
  absent : s.handle? id = none
  unnamed : s.Unnamed id

/-- Nobody comes on stage under the id but by a request, and the stage is not cleared. -/
def Licence.sparing (id : String) : Licence := ⟨fun d => d.id ≠ id, False⟩

variable {id : String} {s t : Session}

namespace Vacant

theorem step (hs : s.Vacant id) (registry : t.Registry) (absent : t.handle? id = none)
    (later : s.cloneSerial ≤ t.cloneSerial) : t.Vacant id :=
  ⟨registry, absent, fun prototype n hn => hs.unnamed prototype n (Nat.lt_of_le_of_lt later hn)⟩

theorem sameCast (hs : s.Vacant id) (registry : t.Registry) (h : s.stage.SameCast t.stage)
    (later : s.cloneSerial ≤ t.cloneSerial) : t.Vacant id :=
  hs.step registry ((congrFun h.find? id).trans hs.absent) later

theorem spawned (hs : s.Vacant id) {d : Spawn Float32} {h : Handle} (other : d.id ≠ id)
    (registry : t.Registry) (spawned : s.stage.spawn d = .ok (h, t.stage))
    (later : s.cloneSerial ≤ t.cloneSerial) : t.Vacant id := by
  refine hs.step registry ?_ later
  have new := Stage.spawned_of_spawn hs.registry.stage.fresh spawned
  rw [handle?, new.find?, if_neg fun same => other (beq_iff_eq.mp same).symm]
  exact hs.absent

theorem deed (h : Deed s t) (hs : s.Vacant id) : t.Vacant id := by
  have registry := hs.registry.deed h
  have later := Nat.le_of_eq h.fixed.2.1.symm
  rcases h.cast hs.registry.stage with same | ⟨j, x, gone⟩
  · exact hs.sameCast registry same later
  · refine hs.step registry ?_ later
    rw [handle?, gone.find?]
    split
    · rfl
    · exact hs.absent

theorem clone {r : Except SessionError String} (hs : s.Vacant id) (h : CloneStep s r t) :
    t.Vacant id := by
  have registry := hs.registry.clone h
  cases h with
  | refused serial h later =>
    refine hs.sameCast registry ?_ ?_
    · rw [h.rest]
      exact .refl _
    · rw [h.rest]
      exact later
  | @made _ j prototype template h stage store room known spawned locals rest named =>
    have other : j ≠ id := fun same =>
      hs.unnamed prototype _ (Nat.lt_succ_self _) (named.symm.trans same)
    refine hs.spawned (d := s.cloneSpawn template prototype j) (h := h) ?_ registry ?_ ?_
    · rw [cloneSpawn_id]
      exact other
    · rw [rest.rest]
      exact spawned
    · rw [rest.rest]
      exact Nat.le_succ _

end Vacant

theorem stable_vacant (id : String) : Stable (.sparing id) (Vacant id) where
  deed := Vacant.deed
  upkeep h hs := by
    refine hs.sameCast (stable_registry.upkeep h hs.registry) h.stage ?_
    rw [h.rest]
    exact Nat.le_refl _
  request s source hs := hs.clone (s.requestClone_step source)
  queue s starts draining hs :=
    ⟨stable_registry.queue s starts draining hs.registry, hs.absent, hs.unnamed⟩
  template s j t hs := ⟨stable_registry.template s j t hs.registry, hs.absent, hs.unnamed⟩
  enroll other ht hs := by
    have registry := stable_registry.enroll trivial ht hs.registry
    obtain ⟨x, stage, spawned, rfl⟩ := enroll_ok ht
    exact hs.spawned other registry spawned (Nat.le_refl _)
  clear h := h.elim
  define s ds hs := ⟨stable_registry.define s ds hs.registry, hs.absent, hs.unnamed⟩
  forget h := h.elim
  events s hs := ⟨stable_registry.events s hs.registry, hs.absent, hs.unnamed⟩

/-- Deleting an entity leaves its id vacant. -/
theorem vacant_deleteEntity (registry : s.Registry) (unnamed : s.Unnamed id) :
    (s.deleteEntity id).2.Vacant id := by
  have deleted : Deed s (s.deleteEntity id).2 := .delete id
  refine ⟨registry.deed deleted, ?_, fun prototype n later => ?_⟩
  · rcases deleteEntity_cases registry.stage id with ⟨absent, same⟩ | ⟨h, stage, gone, left⟩
    · rw [same]
      exact absent
    · rw [left]
      show stage.find? id = none
      rw [gone.find?, if_pos (beq_self_eq_true id)]
  · rw [deleted.fixed.2.1] at later
    exact unnamed prototype n later

end Session

theorem Play.get_bind_apply {α : Type} (f : Session → Play α) (s : Session) :
    (get >>= f) s = f s s := rfl

namespace Session

variable {id : String} {s t : Session}

/-! ## Stillness -/

/-- At this moment nothing that an entity has under way or in store is carried out. -/
structure Still (id : String) (s : Session) : Prop where
  /-- There is nothing that an event could launch. -/
  behaviors : ∀ test, s.behaviors id test = []
  /-- Whatever is left of a script ends without a step. -/
  scripts : ∀ clone frames, (Play.host clone id).run frames s = .ok .finished s
  /-- A paused task is dropped before anyone looks at what it waits for. -/
  paused : ∀ t : Task, t.entity = id →
    Play.resume t s = .ok none { s with scheduler := s.scheduler.deactivate id t.behavior }
  /-- A start script that has paused is dropped as well, and those after it begin. -/
  begun : ∀ t : Task, t.entity = id → s.running = true → s.scheduler.starting = true →
    s.scheduler.startTask = some t →
    Play.advanceStart s = Play.runStarts s.scheduler.startQueue
      { s with scheduler := { s.scheduler with startTask := none } }
  /-- A start script that is still queued is passed over. -/
  queued : ∀ b rest, s.running = true →
    Play.runStarts ((id, b) :: rest) s
      = Play.runStarts rest { s with scheduler := { s.scheduler with startQueue := rest } }

/-- Who may not run takes no step. -/
theorem run_of_mayRun {entity : String} (h : s.mayRun entity = false) (clone : String → Play Unit)
    (frames : List Frame) : (Play.host clone entity).run frames s = .ok .finished s := by
  have asked : (Play.host clone entity).alive s = .ok false s := by
    rw [← h]
    rfl
  rw [Host.run.eq_def, Play.bind_of_ok asked]
  rfl

theorem runSlice_of_mayRun {t : Task} (h : s.mayRun t.entity = false) (clone : String → Play Unit) :
    Play.runSlice clone t s = .ok none s := by
  rw [Play.runSlice, Play.bind_of_ok (run_of_mayRun h clone t.frames)]
  rfl

/-- The same after any move of the scheduler. -/
theorem runSlice_bind_of_mayRun {α : Type} {t : Task} (h : s.mayRun t.entity = false)
    (clone : String → Play Unit) (q : Scheduler) (f : Option Task → Play α) :
    (Play.runSlice clone t >>= f) { s with scheduler := q }
      = f none { s with scheduler := q } := by
  have may : mayRun { s with scheduler := q } t.entity = false := h
  exact Play.bind_of_ok (runSlice_of_mayRun may clone)

namespace Vacant

variable (hs : s.Vacant id)
include hs

theorem notMem : id ∉ s.stage.ids := by
  intro there
  obtain ⟨h, hf⟩ := hs.registry.stage.mem_ids.mp there
  cases hf.symm.trans hs.absent

theorem mayRun : s.mayRun id = false := by
  rw [Session.mayRun, isLive, hs.absent, Bool.and_false]

theorem behaviors (test : Trigger → Bool) : s.behaviors id test = [] := by
  rw [Session.behaviors]
  cases hc : s.catalogs.get? id with
  | none => rfl
  | some c =>
    have kept : s.catalogs.contains id = true := by rw [Table.contains, hc, Option.isSome_some]
    exact absurd ((hs.registry.catalogs id).mp kept) hs.notMem

theorem runSlice {t : Task} (h : t.entity = id) (clone : String → Play Unit) :
    Play.runSlice clone t s = .ok none s :=
  runSlice_of_mayRun (h ▸ hs.mayRun) clone

/-- **An entity that is gone is still.** -/
theorem still : s.Still id where
  behaviors := hs.behaviors
  scripts clone frames := run_of_mayRun hs.mayRun clone frames
  paused t ht := by
    have asked : Play.ask (fun s => s.mayRun t.entity) s = .ok false s := by
      rw [← hs.mayRun, ← ht]
      rfl
    rw [Play.resume, Play.bind_of_ok asked, ← ht]
    rfl
  begun t ht running starting start := by
    have may : s.mayRun t.entity = false := ht ▸ hs.mayRun
    have looked : Play.advanceStart s
        = Play.continueStart t s.scheduler.startQueue
          { s with scheduler := { s.scheduler with startTask := none } } := by
      rw [Play.advanceStart, Play.get_bind_apply, if_neg (by rw [starting]; decide),
        if_neg (by rw [running]; decide), start]
      dsimp only
      rw [may]
      rfl
    rw [looked, Play.continueStart]
    exact runSlice_bind_of_mayRun may _ _ _
  queued b rest running := by
    have asked : Play.ask Session.running s = .ok true s := by
      rw [← running]
      rfl
    rw [Play.runStarts, Play.bind_of_ok asked]
    exact runSlice_bind_of_mayRun (t := Task.new id b) hs.mayRun _ _ _

end Vacant

end Session

end BlockStage
