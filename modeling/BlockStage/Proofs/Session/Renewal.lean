/-
  Renewal: what one scene leaves to the next.

  1. **Specification (`Session.Renewal`)** — once a scene has been loaded or the session has been
     cleaned up, nothing is under way: no task, no start script, no clone start, no touch and no
     request for a scene.  From then on all happens as if there had never been more than what a
     session keeps from scene to scene (`Session.remains`), so nothing that was under way before can
     have an effect.

  2. **Messages** — stopping drops the messages that are queued, but what is idle is not stopped
     again.  So the messages that a host queues between a stop and the next start outlast the
     scene: the queue is empty afterwards exactly if the session was running or the queue was empty.

  3. **The crux** — what is idle has nothing under way but messages (`clearStage_remains`), and
     loading adds to no queue (`loads_loadScene`).
-/
import BlockStage.Proofs.Session.Silence
import BlockStage.Proofs.Stage.Solids

namespace BlockStage

namespace Session

variable {s : Session}

/-! ## What remains -/

/-- What a session keeps when its stage is cleared: its settings and sizes, global values, costumes,
    sounds, inputs, reports, the clock and the generator, and the messages that were queued while it
    was idle. -/
def remains (s : Session) : Session :=
  let t := s.stopAll
  { new s.config with
    stage := t.stage.clear
    store := t.store.dropAllLocals
    costumes := t.costumes
    sounds := t.sounds
    inbox := t.inbox
    input := t.input
    player := t.player
    journal := t.journal
    journalShared := t.journalShared
    events := t.events
    clock := t.clock
    generator := t.generator
    nextBehavior := t.nextBehavior
    cloneBudget := t.cloneBudget }

theorem running_stopAll (s : Session) : s.stopAll.running = false := by
  rw [stopAll]
  split
  · rename_i idle
    simpa using idle
  · rfl

/-- Stopping drops the queued messages, unless there is nothing to stop. -/
theorem inbox_stopAll (s : Session) : s.stopAll.inbox = if s.running then [] else s.inbox := by
  rw [stopAll]
  cases s.running <;> rfl

/-- Stopping keeps what scripts cannot change. -/
theorem fixed_stopAll (s : Session) :
    s.stopAll.config = s.config ∧ s.stopAll.draining = s.draining := by
  rw [stopAll]
  split <;> exact ⟨rfl, rfl⟩

/-- What is stopped between calls runs no loops. -/
theorem loopsActive_stopAll (hs : s.Ledger false []) : s.stopAll.loopsActive = false := by
  rw [stopAll]
  split
  · rename_i idle
    exact (hs.idle (by simpa using idle)).2.1
  · rfl

/-- What remains has nothing to stop. -/
theorem stopAll_remains (s : Session) : s.remains.stopAll = s.remains := rfl

/-- Clearing the stage leaves what remains and, so far, the request for a scene. -/
theorem clearStage_remains (hs : s.Ledger false []) :
    { s.stopAll.clearStage with pendingScene := none }
      = { s.remains.stopAll.clearStage with pendingScene := none } := by
  rw [stopAll_remains]
  have running := running_stopAll s
  have scheduler := idle_stopAll hs
  have loops := loopsActive_stopAll hs
  obtain ⟨config, draining⟩ := fixed_stopAll s
  have outside : s.stopAll.draining = false := draining.trans hs.drains
  have empty : s.remains.clearStage.stage = s.stopAll.clearStage.stage :=
    s.stopAll.stage.clear_clear
  have cleared : s.remains.clearStage
      = { s.remains.clearStage with stage := s.stopAll.clearStage.stage } := by
    rw [← empty]
  rw [cleared, remains, clearStage, running, scheduler, loops, outside, config]
  rfl

/-- **The next scene sees only what remains.** -/
theorem last_remains (hs : s.Ledger false []) {c : Call} (hc : ¬c.KeepsScene) :
    c.run.last s.remains = c.run.last s := by
  have same := clearStage_remains hs
  cases c with
  | loadScene scene =>
    show (s.remains.loadScene scene).2 = (s.loadScene scene).2
    rw [loadScene, loadScene, same]
  | cleanup =>
    show s.remains.cleanup = s.cleanup
    have cleaned : ∀ t : Session, t.cleanup
        = { { t.stopAll.clearStage with pendingScene := none } with
            store := { t.stopAll.clearStage with pendingScene := none }.store.forgetValues
            input := { t.stopAll.clearStage with pendingScene := none }.input.clear
            player := { t.stopAll.clearStage with pendingScene := none }.player.clear
            events := []
            clock := .start
            journalShared := false
            stage := { t.stopAll.clearStage with pendingScene := none }.stage.forgetPhases } :=
      fun _ => rfl
    rw [cleaned, cleaned, same]
  | _ => exact absurd trivial hc

/-! ## What is under way -/

/-- Nothing is under way in a session, apart from messages. -/
structure Blank (s : Session) : Prop where
  running : s.running = false
  scheduler : s.scheduler = .idle
  loops : s.loopsActive = false
  cloneStarts : s.cloneStarts = []
  draining : s.draining = false
  touching : s.touching = []
  touchingBefore : s.touchingBefore = []
  pendingScene : s.pendingScene = none

/-- The session in which the entities of a scene are registered. -/
def stocked (s : Session) (scene : Scene) : Session :=
  (({ s.stopAll.clearStage with pendingScene := none }.defineVariables
    scene.definitions).addCostumes scene.costumes).addSounds scene.sounds

/-- Loading a scene does what loading its entities does. -/
theorem loads_loadScene (s : Session) (scene : Scene) :
    (s.stocked scene).Loads (s.loadScene scene).2 := by
  have loaded := loads_loadEntities scene.entities (s.stocked scene)
  rw [stocked] at loaded
  rw [loadScene]
  dsimp only
  split
  · rename_i h
    rw [h] at loaded
    exact loaded.trans rfl
  · exact loaded

/-- Loading queues no message. -/
theorem Loads.inbox {t : Session} (h : s.Loads t) : t.inbox = s.inbox := by
  rw [h]
  rfl

/-- Loading neither starts nor stops. -/
theorem Loads.running {t : Session} (h : s.Loads t) : t.running = s.running := by
  rw [h]
  rfl

/-- Loading adds nothing to what is under way. -/
theorem Blank.loads {t : Session} (hs : s.Blank) (h : s.Loads t) : t.Blank := by
  rw [h]
  exact ⟨hs.running, hs.scheduler, hs.loops, hs.cloneStarts, hs.draining, hs.touching,
    hs.touchingBefore, hs.pendingScene⟩

/-- After the stage has been cleared nothing is under way but the messages that remain. -/
theorem blank_last (s : Session) {c : Call} (hc : ¬c.KeepsScene) :
    (c.run.last s.remains).Blank ∧ (c.run.last s.remains).inbox = s.remains.inbox := by
  cases c with
  | loadScene scene =>
    have loads := loads_loadScene s.remains scene
    have stocked : (s.remains.stocked scene).Blank := ⟨rfl, rfl, rfl, rfl, rfl, rfl, rfl, rfl⟩
    exact ⟨stocked.loads loads, loads.inbox⟩
  | cleanup => exact ⟨⟨rfl, rfl, rfl, rfl, rfl, rfl, rfl, rfl⟩, rfl⟩
  | _ => exact absurd trivial hc

/-! ## The specification -/

/-- What can be said of a session and a call that clears its stage. -/
structure Renewal (s : Session) (c : Call) : Prop where
  /-- Nothing is under way afterwards but messages. -/
  blank : (c.run.last s).Blank
  /-- Exactly the messages that were queued while the session was idle are left. -/
  inbox : (c.run.last s).inbox = if s.running then [] else s.inbox
  /-- Whatever is called from then on, all happens as if there had never been more than what
      remains. -/
  after : ∀ calls : List Call, s.after (c :: calls) = s.remains.after (c :: calls)

/-- **Scripts, clones, touches and requests never outlast their scene**, and messages do exactly if
    they were queued while nothing was running. -/
theorem renewal_of_reachable (hs : Reachable s) {c : Call} (hc : ¬c.KeepsScene) : s.Renewal c := by
  have ledger := ledger_of_reachable hs
  have same := last_remains ledger hc
  obtain ⟨blank, mail⟩ := blank_last s hc
  rw [same] at blank mail
  refine ⟨blank, mail.trans (inbox_stopAll s), fun calls => ?_⟩
  show (c.run.last s).after calls = (c.run.last s.remains).after calls
  rw [same]

/-- Someone waits for a message, another message has been queued, and a scene has been asked for. -/
def expectant : Session :=
  (fresh .usual (Generator.ofSeed 0) 5).after
    [.register (Spawn.new "a"),
      .addBehaviors "a" ⟨[⟨0, .message "m", [.waitUntil (.const (.bool false))]⟩], [], 1⟩,
      .script .start, .broadcast "m", .script (.updateBy 0), .broadcast "m", .requestScene "next"]

theorem renewal_expectant :
    expectant.waitingKeys = [("a", 0)] ∧ expectant.inbox = ["m"] ∧
      expectant.Renewal .cleanup ∧ (expectant.after [.cleanup]).inbox = [] := by
  have renewal : expectant.Renewal .cleanup :=
    renewal_of_reachable ((Reachable.fresh _ _ _).after _ (by decide +kernel)) id
  exact ⟨by decide +kernel, by decide +kernel, renewal, by decide +kernel⟩

/-- A message that has been queued while the session was idle reaches the next scene: what is loaded
    here is one entity that asks for a scene once it gets the message. -/
def haunted : Session :=
  (fresh .usual (Generator.ofSeed 0) 5).after
    [.broadcast "m", .cleanup, .register (Spawn.new "a"),
      .addBehaviors "a" ⟨[⟨0, .message "m",
        [.action (.switchScene (.const (.text "haunted")))]⟩], [], 1⟩,
      .script .start, .script (.updateBy 0)]

/-- **Messages can outlast a scene**: the message was queued before the session was cleaned up, and
    it is delivered after the next start. -/
theorem haunted_delivers :
    Reachable haunted ∧ haunted.pendingScene = some "haunted" ∧
      .messageDelivered "m" 1 ∈ haunted.events :=
  ⟨(Reachable.fresh _ _ _).after _ (by decide +kernel), by decide +kernel, by decide +kernel⟩

end Session

end BlockStage
