/-
  Playing on: what calls do to the player of a session.

  1. **Specification (`Play.Plays`)** — a step does nothing to the player but what can be done to a
     player, whether or not it breaks off.

  2. **The theorem (`plays_call`)** — scripts and hosts play sounds, end playbacks, take requests and
     clear the player, and nothing else touches it.  So the player of a session always has a history
     (`reached_of_visited`), and what is known of histories is known of it.
-/
import BlockStage.Proofs.Session.Renewal

namespace BlockStage

open Player (Evolves)

namespace Play

variable {α : Type}

/-! ## Scripts -/

/-- A step that does to the player only what can be done to one. -/
def Plays (p : Play α) : Prop := ∀ s : Session, s.player.Evolves (p.last s).player

theorem trying_plays : Trying fun {α} => Plays (α := α) where
  bind := last_bind (R := fun s t => s.player.Evolves t.player) Evolves.trans
  attempt {α f} hf _ s := by
    rw [last_attempt]
    exact hf.player s

theorem thorough_plays : Thorough fun {α} => Plays (α := α) :=
  ⟨trying_plays.closed, fun _ _ kept s => (kept s).player⟩

theorem plays_createClone (source : String) : Plays (createClone source) := by
  have next : Plays nextCloneStart := by
    intro s
    cases queue : s.cloneStarts with
    | nil =>
      rw [last_of_ok (nextCloneStart_nil queue)]
      exact .refl _
    | cons id rest =>
      rw [last_of_ok (nextCloneStart_cons queue)]
      exact .refl _
  exact thorough_plays.createClone (fun source s => (s.spares_requestClone source).player) next
    (fun _ => .refl _) (fun hf s => hf s s) (fun _ _ => .refl _) source

theorem plays_makeClone (source : String) : Plays (makeClone source) :=
  thorough_plays.discarded (plays_createClone source)

theorem plays_scriptCall (c : ScriptCall) : Plays c.run :=
  thorough_plays.scriptCall trying_plays.tick plays_createClone c

end Play

/-! ## Calls -/

namespace Session

/-- Loading an entity plays nothing. -/
theorem Loads.player {s t : Session} (h : s.Loads t) : t.player = s.player := by
  rw [h]
  rfl

end Session

open Session in
/-- **Every call does to the player only what can be done to one.** -/
theorem Play.plays_call (c : Call) : Plays c.run := by
  intro s
  cases c with
  | script c => exact plays_scriptCall c s
  | entity id c => exact ((skill_entityCall id c).kept s).player
  | playSound id key => exact thorough_plays.discarded (thorough_plays.playSound id key) s
  | loadScene scene =>
    have stopped : s.player.Evolves (s.stocked scene).player := (skill_stopAll.kept s).player
    exact stopped.trans (.of_eq (loads_loadScene s scene).player)
  | loadEntity e => exact .of_eq (loads_loadEntity s e).player
  | register d =>
    show s.player.Evolves (Call.orSame s (s.enroll d)).player
    cases enrolled : s.enroll d with
    | ok t => exact .of_eq (loads_enroll enrolled).player
    | error _ => exact .refl _
  | saveTemplate id =>
    show s.player.Evolves (Call.orSame s (s.saveTemplate id)).player
    cases saved : s.saveTemplate id with
    | ok t => exact .of_eq (loads_saveTemplate saved).player
    | error _ => exact .refl _
  | addBehaviors id c => exact .of_eq (loads_addBehaviors s id c).player
  | stopAll => exact (skill_stopAll.kept s).player
  | cleanup => exact (skill_stopAll.kept s).player.trans (.one .clear)
  | keyUp raw =>
    have released : Plays (keyUp raw) := by
      rw [keyUp]
      cases Key.parse? raw with
      | none => exact thorough_plays.pure false
      | some key => exact thorough_plays.bind (fun _ => .refl _) fun _ => thorough_plays.pure true
    exact thorough_plays.discarded released s
  | broadcast message => exact ((tidy_broadcast message).kept s).player
  | completeSound handle => exact .one (.complete handle)
  | stopAllSounds => exact .one .stopAll
  | takeRequests => exact .one .takeRequests
  | _ => exact .refl _

/-- **The player of a session has a history**, whatever was called. -/
theorem Session.reached_of_visited {s : Session} (h : Visited s) : s.player.Reached := by
  induction h with
  | fresh config g budget => exact ⟨config.audioHistory, [], rfl⟩
  | call c _ ih => exact ih.evolves (Play.plays_call c _)

end BlockStage
