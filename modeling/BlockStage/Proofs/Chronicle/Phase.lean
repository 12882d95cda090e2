/-
  The start phase: one start script after the other.

  1. **Phases (`Phase`)** — the start scripts that are still to begin, and the one that is paused, if
     any; or the phase is over.

  2. **Specification (`Phase.Walk`)** — what the moments of a run say about the phase.  The next
     start script of the queue begins when the one before is over, and runs till it pauses or is
     over.  Every update looks at the one that is paused, and takes it up again.  After the last the
     phase is completed.  Between calls the phase of a running session is never such that a start
     script could begin, and no looping behavior is launched before the phase is over.

  3. **The crux (`Session.Lingers`)** — besides what is done for the phase itself, nothing moves it
     on, whatever scripts and hosts do: the queue, the paused script and the looping behaviors stay
     as they are, unless everything is stopped.  So each part of a call walks on from where the one
     before has led (`Phase.Leads`).
-/
import BlockStage.Proofs.Chronicle.Mail
import BlockStage.Proofs.Chronicle.Yields

namespace BlockStage

open Session (Trace Change Effect Feat Feats)

/-! ## Phases -/

/-- How far the start phase has come: no start script is under way and these are to begin; one is
    paused and these are to begin after it; or the phase is over. -/
inductive Phase where
  | ready (rest : List (String × Behavior))
  | paused (t : Task) (rest : List (String × Behavior))
  | ended

/-- How a run of a start script ends: it pauses, or it is over. -/
def Occasion.left (entity : String) (behavior : Nat) : Option Task → Occasion
  | some t => .parked t
  | none => .closed entity behavior

/-- Looks at a paused start script and takes it up again if it need not wait; answers what is left
    of it. -/
def Chronicle.takeUp (t : Task) : Chronicle (Option Task) := do
  let s ← get
  let waits ← if s.mayRun t.entity then (do return !(← look t)) else pure false
  if waits then return some t else slice makeClone t

namespace Phase

/-- The phase after a run of a start script. -/
def after (rest : List (String × Behavior)) : Option Task → Phase
  | some t => .paused t rest
  | none => .ready rest

/-- Is no start script about to begin? -/
def Waits : Phase → Prop
  | .ready _ => False
  | _ => True

/-- What can happen in a phase besides the calls of the host and what is done for the phase itself:
    looping behaviors are launched only when it is over, and when a start script is paused then
    every update is for it. -/
def Admits (p : Phase) : Occasion → Prop
  | .call _ => False
  | .start => False
  | .opened _ _ => False
  | .parked _ => False
  | .fetched _ => False
  | .closed _ _ => False
  | .complete => False
  | .update => p = .ended
  | .launch _ b => b.trigger = .forever → p = .ended
  | _ => True

/-- From a phase these moments lead to another. -/
inductive Walk : Phase → List Moment → Phase → Prop where
  | stay (p : Phase) : Walk p [] p
  /-- The next start script begins, and runs till it pauses or is over. -/
  | opened {entity : String} {b : Behavior} {rest : List (String × Behavior)} {s u : Session}
    {left : Option Task} {body l : List Moment} {q : Phase} (running : s.running = true)
    (runs : Chronicle.slice Chronicle.makeClone (Task.new entity b)
      { s with scheduler := { s.scheduler with startQueue := rest } } = (.ok left u, body))
    (next : Walk (.after rest left) l q) :
    Walk (.ready ((entity, b) :: rest))
      (⟨.opened entity b, s⟩ :: (body ++ ⟨.left entity b.id left, u⟩ :: l)) q
  /-- In an update the paused start script is looked at, and if it need not wait any longer, then it
      runs till it pauses again or is over. -/
  | fetched {t : Task} {rest : List (String × Behavior)} {s s' u : Session} {left : Option Task}
    {body l : List Moment} {q : Phase}
    (runs : Chronicle.takeUp t
      { s with scheduler := { s.scheduler with startTask := none } } = (.ok left u, body))
    (next : Walk (.after rest left) l q) :
    Walk (.paused t rest)
      (⟨.update, s'⟩ :: ⟨.fetched t, s⟩ :: (body ++ ⟨.left t.entity t.behavior left, u⟩ :: l)) q
  /-- After the last start script the phase is completed. -/
  | complete {s : Session} {l : List Moment} {q : Phase} (running : s.running = true)
    (next : Walk .ended l q) : Walk (.ready []) (⟨.complete, s⟩ :: l) q
  /-- The host makes a call, but not while a start script is about to begin in a running session. -/
  | call {p : Phase} {c : Call} {s : Session} {l : List Moment} {q : Phase}
    (waits : s.running = true → p.Waits) (next : Walk p l q) : Walk p (⟨.call c, s⟩ :: l) q
  | other {p : Phase} {o : Occasion} {s : Session} {l : List Moment} {q : Phase}
    (admits : p.Admits o) (next : Walk p l q) : Walk p (⟨o, s⟩ :: l) q

namespace Walk

variable {p q r : Phase} {l m : List Moment}

theorem trans (h : Walk p l q) (k : Walk q m r) : Walk p (l ++ m) r := by
  induction h with
  | stay p => exact k
  | opened running runs _ ih =>
    rw [List.cons_append, List.append_assoc, List.cons_append]
    exact .opened running runs (ih k)
  | fetched runs _ ih =>
    rw [List.cons_append, List.cons_append, List.append_assoc, List.cons_append]
    exact .fetched runs (ih k)
  | complete running _ ih => exact .complete running (ih k)
  | call waits _ ih => exact .call waits (ih k)
  | other admits _ ih => exact .other admits (ih k)

/-- What a phase admits leaves it as it is. -/
theorem of_admits (h : ∀ k ∈ l, p.Admits k.occasion) : Walk p l p := by
  induction l with
  | nil => exact .stay p
  | cons k l ih =>
    exact .other (h k List.mem_cons_self) (ih fun j hj => h j (List.mem_cons_of_mem k hj))

end Walk

end Phase

theorem Occasion.Scripted.admitted {o : Occasion} (h : o.Scripted) (p : Phase) : p.Admits o := by
  cases o with
  | launch id b =>
    intro loops
    have starts : Play.startsClone b.trigger = true := h
    rw [loops] at starts
    cases starts
  | work | clone | post => trivial
  | _ => exact h.elim

theorem Occasion.Delivering.admitted {o : Occasion} (h : o.Delivering) (p : Phase) :
    p.Admits o := by
  cases o with
  | launch id b => exact fun loops => absurd loops h
  | deliver | visit | turn | delivered | work | clone | post => trivial
  | _ => exact h.elim

/-! ## What moves no phase on -/

namespace Session

variable {s t u : Session}

/-- Looping behaviors are not turned on; and if the session is running in the end, then it was
    before, and the start phase has come no further. -/
structure Lingers (s t : Session) : Prop where
  loops : t.loopsActive = true → s.loopsActive = true
  phase : t.running = true → s.running = true ∧ t.scheduler
    = { s.scheduler with waiting := t.scheduler.waiting, active := t.scheduler.active }

namespace Lingers

theorem refl (s : Session) : s.Lingers s := ⟨id, fun running => ⟨running, rfl⟩⟩

theorem trans (h : s.Lingers t) (k : t.Lingers u) : s.Lingers u where
  loops on := h.loops (k.loops on)
  phase running := by
    obtain ⟨running, later⟩ := k.phase running
    obtain ⟨running, before⟩ := h.phase running
    refine ⟨running, ?_⟩
    rw [later, before]

theorem off (h : s.Lingers t) (off : s.loopsActive = false) : t.loopsActive = false :=
  Bool.eq_false_iff.mpr fun on => Bool.eq_false_iff.mp off (h.loops on)

theorem idle (h : s.Lingers t) (idle : s.running = false) : t.running = false :=
  Bool.eq_false_iff.mpr fun running => Bool.eq_false_iff.mp idle (h.phase running).1

/-- Only running, tasks and loops count. -/
theorem same (running : t.running = s.running) (loops : t.loopsActive = s.loopsActive)
    (scheduler : t.scheduler = { s.scheduler with
      waiting := t.scheduler.waiting, active := t.scheduler.active }) : s.Lingers t :=
  ⟨fun on => loops ▸ on, fun run => ⟨running ▸ run, scheduler⟩⟩

theorem aside (h : s.Aside t) : s.Lingers t := by
  rw [h.rest]
  exact same rfl rfl rfl

theorem stopAll (s : Session) : s.Lingers s.stopAll := by
  refine ⟨fun on => ?_, fun running => ?_⟩
  · rw [Session.stopAll] at on
    split at on
    · exact on
    · cases on
  · rw [running_stopAll] at running
    cases running

end Lingers

theorem Feat.lingers (h : Feat s t) : s.Lingers t := by
  cases h with
  | beside h => exact .aside h.toAside
  | delete id =>
    rw [deleteEntity]
    split <;> exact .same rfl rfl rfl
  | stop => exact .stopAll s
  | _ => exact .same rfl rfl rfl

theorem Feats.lingers (h : Feats s t) : s.Lingers t := by
  induction h with
  | refl => exact .refl s
  | tail _ k ih => exact ih.trans k.lingers

theorem Change.lingers (h : Change s t) : s.Lingers t := by
  cases h with
  | feat h => exact h.lingers
  | idle idle =>
    refine ⟨id, fun running => ?_⟩
    rw [show ({ s with scheduler := .idle } : Session).running = false from idle] at running
    cases running
  | _ => exact .same rfl rfl rfl

theorem CloneStep.lingers {r : Except SessionError String} (h : CloneStep s r t) :
    s.Lingers t := by
  cases h with
  | refused serial h =>
    refine Lingers.trans ?_ (.aside h)
    exact .same rfl rfl rfl
  | made room known spawned locals rest named =>
    refine Lingers.trans ?_ (.aside rest)
    exact .same rfl rfl rfl

theorem lingers_requestClone (s : Session) (source : String) :
    s.Lingers (s.requestClone source).2 := (s.requestClone_step source).lingers

/-- What a phase admits does not move it on. -/
theorem Effect.lingers {p : Phase} {o : Occasion} (h : Effect o s t) (admits : p.Admits o) :
    s.Lingers t := by
  cases h with
  | call | plain | start | opened | parked | fetched | closed | complete => exact admits.elim
  | @work _ entity behavior w h => exact (w.feats entity s).lingers
  | launch running h =>
    refine .same rfl rfl ?_
    dsimp only
    rw [Chronicle.activate_eq]
  | clone source => exact s.lingers_requestClone source
  | _ => exact .same rfl rfl rfl

theorem Trace.lingers {p : Phase} {l : List Moment} (h : Trace p.Admits s l t) : s.Lingers t := by
  induction h with
  | start => exact .refl s
  | change _ k ih => exact ih.trans k.lingers
  | moment _ ho k ih => exact ih.trans (k.lingers ho)

theorem Chores.lingers {brings saves : String → Prop} {adds : Behavior → Prop}
    (h : Chores brings saves adds s t) : s.Lingers t := by
  induction h with
  | refl => exact .refl s
  | tail _ k ih =>
    refine ih.trans ?_
    cases k with
    | trick h => exact h.feat.lingers
    | enroll hd h =>
      obtain ⟨x, stage, -, rfl⟩ := enroll_ok h
      exact .same rfl rfl rfl
    | _ => exact .same rfl rfl rfl

/-- A call that runs no scripts does not move the phase on. -/
theorem lingers_plain {c : Call} (hc : c.Plain) (s : Session) : s.Lingers (c.run.last s) := by
  by_cases keeps : c.KeepsScene
  · exact (c.chores hc keeps s).lingers
  · -- what clears the stage stops everything before
    cases c with
    | loadScene scene =>
      have cleared : s.Lingers (s.stocked scene) :=
        (Lingers.stopAll s).trans (.same rfl rfl rfl)
      exact cleared.trans (Chores.loadScene s scene).lingers
    | cleanup => exact (Lingers.stopAll s).trans (.same rfl rfl rfl)
    | _ => exact absurd trivial keeps

end Session

/-! ## Sessions and phases -/

namespace Phase

variable {p q : Phase} {s t : Session} {l m : List Moment}

/-- A session is as far as a phase says. -/
def Fits : Phase → Session → Prop
  | .ready _, s => s.loopsActive = false ∧ s.running = false
  | .paused t rest, s => s.loopsActive = false ∧ (s.running = true →
      s.scheduler.starting = true ∧ s.scheduler.startTask = some t ∧ s.scheduler.startQueue = rest)
  | .ended, s => s.running = true → s.scheduler.starting = false

theorem Fits.waits (h : p.Fits s) (running : s.running = true) : p.Waits := by
  cases p with
  | ready rest => exact absurd running (Bool.eq_false_iff.mp h.2)
  | _ => trivial

theorem Fits.lingers (h : p.Fits s) (k : s.Lingers t) : p.Fits t := by
  cases p with
  | ready rest => exact ⟨k.off h.1, k.idle h.2⟩
  | paused t rest =>
    refine ⟨k.off h.1, fun running => ?_⟩
    obtain ⟨before, same⟩ := k.phase running
    rw [same]
    exact h.2 before
  | ended =>
    intro running
    obtain ⟨before, same⟩ := k.phase running
    rw [same]
    exact h before

/-- From a phase these moments lead to another, which fits the session then. -/
def Leads (p : Phase) (l : List Moment) (t : Session) : Prop := ∃ q, Walk p l q ∧ q.Fits t

theorem Walk.leads (h : Walk p l q) (k : q.Leads m t) : p.Leads (l ++ m) t := by
  obtain ⟨r, walk, fits⟩ := k
  exact ⟨r, h.trans walk, fits⟩

/-- What a phase admits leads on from it. -/
theorem Leads.admitted (h : Trace p.Admits s l t) (fits : p.Fits s) : p.Leads l t :=
  ⟨p, .of_admits h.kind, fits.lingers h.lingers⟩

end Phase

end BlockStage
