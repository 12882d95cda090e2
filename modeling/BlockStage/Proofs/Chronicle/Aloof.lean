/-
  Who notes touches: the touching phase, and nobody else.

  1. **Aloof steps (`Play.Aloof`)** — a step that leaves the sounds as they are, the touches that
     have been noted, and those whose beginning hosts have been told of, whether or not it breaks
     off.  All that a round does is aloof, save noting the pairs in the touching phase: scripts
     neither note touches nor tell of them, and neither do launching, resuming and delivering
     messages.

  2. **Calls** — besides updates no call that runs scripts notes touches, and besides updates only a
     call that clears the stage changes which touches a later update finds noted
     (`Session.touchingBefore_last`).
-/
import BlockStage.Proofs.Chronicle.Post
import BlockStage.Proofs.Chronicle.Touch
import BlockStage.Proofs.Session.Unbroken

namespace BlockStage

namespace Play

variable {α : Type}

/-! ## Aloof steps -/

/-- A step that leaves the sounds and the touches as they are, whether or not it breaks off. -/
def Aloof (p : Play α) : Prop := ∀ s, (p.last s).keepsakes = s.keepsakes

theorem housekeeping_aloof : Housekeeping fun {α} => Aloof (α := α) where
  toWeaving := by
    refine .of_attempts (last_bind (R := fun s t => t.keepsakes = s.keepsakes)
      fun first next => next.trans first) fun {α f} hf _ s => ?_
    rw [last_attempt]
    exact (hf.kept s).keepsakes
  tidy hf s := (hf.kept s).keepsakes
  upkeep _ _ kept s := (kept s).keepsakes

/-- What single steps leave alone does not depend on what they look at. -/
theorem aloof_get_bind {f : Session → Play α} (hf : ∀ s, Aloof (f s)) : Aloof (get >>= f) :=
  fun s => hf s s

theorem aloof_createClone (source : String) : Aloof (createClone source) := by
  have next : Aloof nextCloneStart := by
    intro s
    cases queue : s.cloneStarts with
    | nil => rw [last_of_ok (nextCloneStart_nil queue)]
    | cons id rest =>
      rw [last_of_ok (nextCloneStart_cons queue)]
      rfl
  exact housekeeping_aloof.createClone (fun source s => (s.spares_requestClone source).keepsakes) next
    (fun _ => rfl) aloof_get_bind (fun _ _ => rfl) source

theorem aloof_makeClone (source : String) : Aloof (makeClone source) :=
  housekeeping_aloof.discarded (aloof_createClone source)

theorem aloof_launch : Launching @Aloof launch fun _ => True :=
  housekeeping_aloof.launching (housekeeping_aloof.launchWith aloof_makeClone)

theorem aloof_tick (dt : Float32) : Aloof (tick dt) := by
  rw [tick]
  split
  · exact fun _ => rfl
  · exact fun _ => rfl

theorem Aloof.after {p : Play α} (hp : Aloof p) (s : Session) :
    After p s fun _ t => t.keepsakes = s.keepsakes := by
  have kept := hp s
  rw [After]
  split
  · rename_i a t ht
    rw [last_of_ok ht] at kept
    exact kept
  · trivial

/-! ## Rounds -/

/-- Up to the touching phase a round is aloof. -/
theorem aloof_untilTouches (dt : Float32) : Aloof (untilTouches dt) :=
  have hP := housekeeping_aloof
  hP.bind hP.takeInbox fun _ => hP.bind (aloof_tick _) fun _ => hP.bind (hP.stepPhysics _) fun _ =>
    hP.bind (hP.countPhase _) fun _ => hP.bind (hP.advanceStart aloof_makeClone) fun _ =>
    hP.bind (hP.resumeAll aloof_makeClone) fun _ => hP.bind (hP.countPhase _) fun _ =>
    hP.bind (hP.runLoops aloof_launch) fun _ => hP.bind (hP.countPhase _) fun _ => hP.pure _

/-- What a round does after the touching phase. -/
def afterTouches (inbox : List String) : Play Unit := do
  countPhase "touching"
  if ← ask Session.running then deliverMessages inbox
  countPhase "messages"

/-- So is a round after it. -/
theorem aloof_afterTouches (inbox : List String) : Aloof (afterTouches inbox) := by
  have hP := housekeeping_aloof
  refine hP.bind (hP.countPhase _) fun _ => hP.bind (hP.ask _ fun _ _ => rfl) fun running => ?_
  cases running with
  | true => exact hP.bind (hP.deliverMessages aloof_launch inbox) fun _ => hP.countPhase _
  | false => exact hP.countPhase _

/-- An idle session stays idle in what comes after the touching phase. -/
theorem idle_afterTouches {inbox : List String} {s : Session} (idle : s.running = false) :
    ((afterTouches inbox).last s).running = false := by
  have counted : countPhase "touching" s = .ok () { s with stage := s.stage.record "touching" } := rfl
  have stopped : ask Session.running { s with stage := s.stage.record "touching" }
      = .ok false { s with stage := s.stage.record "touching" } :=
    congrArg (EStateM.Result.ok · _) idle
  rw [afterTouches, last_bind_of_ok counted, last_bind_of_ok stopped]
  exact idle

/-- What a round does from the touching phase on. -/
def sinceTouches (inbox : List String) : Play Unit := do
  if ← ask Session.running then deliverTouches
  afterTouches inbox

theorem sinceTouches_of_running {s : Session} (inbox : List String) (running : s.running = true) :
    sinceTouches inbox s = (deliverTouches >>= fun _ => afterTouches inbox) s := by
  have going : ask Session.running s = .ok true s := congrArg (EStateM.Result.ok · s) running
  rw [sinceTouches, bind_of_ok going, if_pos rfl]

theorem sinceTouches_of_idle {s : Session} (inbox : List String) (idle : s.running = false) :
    sinceTouches inbox s = afterTouches inbox s := by
  have stopped : ask Session.running s = .ok false s := congrArg (EStateM.Result.ok · s) idle
  rw [sinceTouches, bind_of_ok stopped, if_neg Bool.false_ne_true]

/-- A round is what comes before the touching phase and what is done since then. -/
theorem updateBy_of_running {s : Session} (dt : Float32) (running : s.running = true) :
    updateBy dt s = (untilTouches dt >>= sinceTouches) s := by
  have going : ask Session.running s = .ok true s := congrArg (EStateM.Result.ok · s) running
  rw [updateBy_eq, bind_of_ok going]
  rfl

/-! ## Calls -/

/-- Besides updates, calls that run scripts are aloof. -/
theorem aloof_scriptCall {c : ScriptCall} (hc : (Call.script c).isUpdate = false) : Aloof c.run := by
  have hP := housekeeping_aloof
  cases c with
  | start => exact hP.start aloof_makeClone
  | update => cases hc
  | updateBy dt => cases hc
  | keyDown raw => exact hP.discarded (hP.keyDown aloof_launch raw)
  | pointerDown p => exact hP.discarded (hP.pointerDown aloof_launch p)
  | createClone source => exact hP.discarded (aloof_createClone source)

end Play

namespace Session

/-- What loads notes no touches. -/
theorem Loads.touchingBefore {s t : Session} (h : s.Loads t) :
    t.touchingBefore = s.touchingBefore := by
  rw [h]
  rfl

/-- **Besides updates**, no call changes which touches are noted from earlier ones, unless it clears
    the stage. -/
theorem touchingBefore_last {c : Call} (hc : c.isUpdate = false) (hk : c.KeepsScene) (s : Session) :
    (c.run.last s).touchingBefore = s.touchingBefore := by
  have kept : ∀ {t : Session}, t.keepsakes = s.keepsakes → t.touchingBefore = s.touchingBefore :=
    congrArg Keepsakes.touchingBefore
  have hP := Play.housekeeping_aloof
  cases c with
  | script c => exact kept (Play.aloof_scriptCall hc s)
  | entity id c => exact kept ((skill_entityCall id c).kept s).keepsakes
  | playSound id key => exact kept (hP.discarded (hP.playSound id key) s)
  | loadScene scene => exact hk.elim
  | cleanup => exact hk.elim
  | loadEntity e => exact (loads_loadEntity s e).touchingBefore
  | register d =>
    show (Call.orSame s (s.enroll d)).touchingBefore = s.touchingBefore
    cases enrolled : s.enroll d with
    | ok t => exact (loads_enroll enrolled).touchingBefore
    | error _ => rfl
  | saveTemplate id =>
    show (Call.orSame s (s.saveTemplate id)).touchingBefore = s.touchingBefore
    cases saved : s.saveTemplate id with
    | ok t => exact (loads_saveTemplate saved).touchingBefore
    | error _ => rfl
  | addBehaviors id c => exact (loads_addBehaviors s id c).touchingBefore
  | stopAll => exact kept (skill_stopAll.kept s).keepsakes
  | keyUp raw =>
    refine kept (hP.discarded ?_ s)
    rw [Play.keyUp]
    cases Key.parse? raw with
    | none => exact hP.pure false
    | some key => exact hP.bind (fun _ => rfl) fun _ => hP.pure true
  | broadcast message => exact kept ((tidy_broadcast message).kept s).keepsakes
  | _ => rfl

end Session

end BlockStage
