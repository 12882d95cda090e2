/-
  Silence: scripts end with their entity.

  1. **Specification (`Session.Silence`)** — after an entity has been deleted, and as long as nobody
     else comes on stage under its id, nothing of its tasks and of its queued start scripts is
     carried out at any moment: no statement, no condition and no glide.  So all happens as if these
     tasks were empty; and once the stage is cleared they are forgotten, and the id may be used again.

  2. **The crux** — this puts together that a vacant id stays vacant and is still (`Vacant.still`),
     that calls echo in a hollow session (`Vacant.after_hollow`), and that clearing the stage stops
     everything before (`last_of_not_keepsScene`).

  3. The id alone tells whose task it is.  If it is given to someone new while a task of the old
     bearer still waits, that task goes on (`revived_resumes`).
-/
import BlockStage.Proofs.Session.Ceiling
import BlockStage.Proofs.Session.Hollow
import BlockStage.Proofs.Session.Settled

namespace BlockStage

namespace Session

variable {id : String} {s t : Session}

/-! ## Clearing the stage -/

theorem stopAll_stopAll (s : Session) : s.stopAll.stopAll = s.stopAll := by
  have stopped : s.stopAll.running = false := by
    rw [stopAll]
    split
    · rename_i h
      simpa using h
    · rfl
  rw [stopAll, stopped]
  rfl

/-- What is stopped between calls has nothing under way. -/
theorem idle_stopAll (hs : s.Ledger false []) : s.stopAll.scheduler = .idle := by
  rw [stopAll]
  split
  · rename_i h
    exact (hs.idle (by simpa using h)).1
  · rfl

/-- As long as no scripts run, a session with nothing under way stays so. -/
theorem lasting_idle : Lasting .full fun s => s.scheduler = .idle where
  deed h hs := by
    cases h with
    | aside h =>
      rw [h.rest]
      exact hs
    | delete id =>
      rw [deleteEntity]
      split <;> exact hs
    | stop =>
      rw [stopAll]
      split
      · exact hs
      · rfl
    | _ => exact hs
  template _ _ _ hs := hs
  enroll _ ht hs := by
    obtain ⟨x, stage, -, rfl⟩ := enroll_ok ht
    exact hs
  clear _ _ hs := hs
  define _ _ hs := hs
  forget _ _ hs := hs
  events _ hs := hs

/-- A scene is loaded as if everything had been stopped before. -/
theorem loadScene_stopAll (s : Session) (scene : Scene) :
    s.stopAll.loadScene scene = s.loadScene scene := by
  rw [loadScene, stopAll_stopAll]
  rfl

/-- **Clearing the stage forgets every task**, so it forgets what the tasks of an entity hold. -/
theorem last_of_not_keepsScene (hs : s.Ledger false []) {c : Call} (hc : ¬c.KeepsScene)
    (id : String) : c.run.last (s.hollow id) = c.run.last s := by
  cases c with
  | loadScene scene =>
    have idle := lasting_idle.loadScene s.stopAll scene (Call.within_full _) (idle_stopAll hs)
    rw [loadScene_stopAll] at idle
    have same := congrArg Prod.snd (apart_loadScene scene s (hollowing id))
    exact same.trans (hollow_of_idle id idle)
  | cleanup =>
    have idle : s.cleanup.scheduler = .idle := idle_stopAll hs
    exact (cleanup_under s (hollowing id)).trans (hollow_of_idle id idle)
  | _ => exact absurd trivial hc

/-! ## The specification -/

/-- What can be said of the tasks of an entity that has left the stage, as long as nobody else comes
    on stage under its id. -/
structure Silence (id : String) (s : Session) : Prop where
  /-- Calls take a course. -/
  course : ∀ calls : List Call, (∀ c ∈ calls, c.Within (.sparing id)) →
    ∃ ids, Course (.sparing id) s ids (s.after calls)
  /-- At every moment of a course nothing is carried out. -/
  still : ∀ ids t, Course (.sparing id) s ids t → t.Still id
  /-- Whatever is called, all happens as if the tasks were empty. -/
  hollow : ∀ calls : List Call, (∀ c ∈ calls, c.Within (.sparing id)) →
    (s.hollow id).after calls = (s.after calls).hollow id
  /-- Clearing the stage leads to the same session whatever the tasks hold: nothing of them is left,
      and the id may be used again. -/
  cleared : ∀ ids t, Course (.sparing id) s ids t → Reachable t → ∀ c : Call, ¬c.KeepsScene →
    c.run.last (t.hollow id) = c.run.last t

theorem Vacant.silence (hs : s.Vacant id) : s.Silence id where
  course := s.course_after
  still _ _ course := ((stable_vacant id).course course hs).still
  hollow := hs.after_hollow
  cleared _ _ _ reachable _ hc := last_of_not_keepsScene (ledger_of_reachable reachable) hc id

/-- **Scripts end with their entity**: whoever deletes it, a host or a script, and at whatever
    moment, nothing that it had under way is carried out any more, unless its id is given to someone
    else before the stage is cleared. -/
theorem silence_of_deleteEntity {ids : List String} (hs : Visited s) (moment : Course .full s ids t)
    (unnamed : t.Unnamed id) : (t.deleteEntity id).2.Silence id :=
  (vacant_deleteEntity (stable_registry.course moment (registry_of_visited hs)) unnamed).silence

/-- Someone and a clone of them wait for a key to be let go. -/
def holding : Session :=
  (fresh .usual (Generator.ofSeed 0) 5).after
    [.register (Spawn.new "a"),
      .addBehaviors "a" ⟨[⟨0, .key .any, [.waitUntil (.not (.keyHeld .any)),
        .action (.broadcast (.const (.text "boo")))]⟩], [], 1⟩,
      .saveTemplate "a", .script .start, .script (.createClone "a"), .script (.keyDown "space"),
      .keyUp "space"]

theorem silence_holding :
    holding.waitingKeys = [("a", 0), (cloneName "a" 1, 0)] ∧
      (holding.deleteEntity "a").2.Silence "a" ∧
      (holding.deleteEntity (cloneName "a" 1)).2.Silence (cloneName "a" 1) :=
  ⟨by decide +kernel,
    silence_of_deleteEntity ((Visited.fresh _ _ _).after _) .start
      (unnamed_of_notMem _ (by decide)),
    silence_of_deleteEntity ((Visited.fresh _ _ _).after _) .start
      (unnamed_cloneName "a" (by decide +kernel))⟩

/-- Someone else is given the id of an entity that has been deleted while it waited. -/
def revived : Session :=
  holding.after
    [.entity (cloneName "a" 1) .delete, .entity "a" .delete, .register (Spawn.new "a")]

/-- **What waits is told by its id alone**: a script of the entity that has been deleted goes on for
    the new one, which has no scripts. -/
theorem revived_resumes :
    Reachable revived ∧ revived.behaviors "a" (fun _ => true) = [] ∧
      (Play.resumeAll.last revived).inbox = ["boo"] ∧
      (Play.resumeAll.last (revived.hollow "a")).inbox = [] :=
  ⟨((Reachable.fresh _ _ _).after _ (by decide +kernel)).after _ (by decide +kernel),
    by decide +kernel, by decide +kernel, by decide +kernel⟩

end Session

end BlockStage
