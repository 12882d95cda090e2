/-
  Lively scripts: whatever a script does, it does while the session is running.

  1. **Specification (`Chronicle.Lively`)** — from a session with a property, every moment of a step
     finds the session running, also if the step breaks off, and another property holds afterwards.

  2. **Rules** — one for each way of putting steps together.  So it is a contract, and holds of the
     machine (`Host.Lively.run`), which asks before each step whether the script may go on.

  3. **Launches (`Chronicle.lively_launch`)** — so nothing is seen of a behavior that is launched, of
     the clones that it makes and of their start scripts, but while the session is running.  Traces do
     not tell that of the making of clones and the posting of messages, since hosts do these too.
-/
import BlockStage.Proofs.Chronicle.Contract
import BlockStage.Proofs.Chronicle.Faithful

namespace BlockStage

namespace Chronicle

variable {α β : Type}

/-! ## Steps -/

/-- From sessions with a property, every moment of a step finds the session running, and another
    property holds when it returns. -/
structure Lively (pre : Session → Prop) (c : Chronicle α) (post : α → Session → Prop) : Prop where
  running : ∀ s, pre s → ∀ k ∈ (c s).2, k.session.running = true
  after : ∀ s a t, pre s → (c s).1 = .ok a t → post a t

/-- Every moment of a step finds the session running, whatever the session is like. -/
abbrev Livens (c : Chronicle α) : Prop := Lively (fun _ => True) c fun _ _ => True

namespace Lively

variable {pre pre' : Session → Prop} {m post post' : α → Session → Prop}
  {last : β → Session → Prop} {c c' : Chronicle α} {f : α → Chronicle β}

theorem bind (hc : Lively pre c m) (hf : ∀ a, Lively (m a) (f a) last) :
    Lively pre (c >>= f) last where
  running s hs := by
    cases hr : (c s).1 with
    | ok a t =>
      rw [bind_of_ok hr]
      exact List.forall_mem_append.mpr ⟨hc.running s hs, (hf a).running t (hc.after s a t hs hr)⟩
    | error e t =>
      rw [bind_of_error hr]
      exact hc.running s hs
  after s b u hs hb := by
    cases hr : (c s).1 with
    | ok a t =>
      rw [bind_of_ok hr] at hb
      exact (hf a).after t b u (hc.after s a t hs hr) hb
    | error e t =>
      rw [bind_of_error hr] at hb
      cases hb

theorem weaken (h : Lively pre c post) (hpre : ∀ s, pre' s → pre s)
    (hpost : ∀ a t, post a t → post' a t) : Lively pre' c post' :=
  ⟨fun s hs => h.running s (hpre s hs), fun s a t hs ha => hpost a t (h.after s a t (hpre s hs) ha)⟩

/-- A step of which nothing is seen. -/
theorem silent {p : Play α} (after : ∀ s a t, pre s → p s = .ok a t → post a t) :
    Lively pre (liftM p) post :=
  ⟨fun _ _ _ h => (List.not_mem_nil h).elim, after⟩

/-- A step that is seen. -/
theorem seen {o : Occasion} {p : Play α} (h : ∀ s, pre s → s.running = true)
    (after : ∀ s a t, pre s → p s = .ok a t → post a t) :
    Lively pre (Chronicle.seen o p) post := by
  refine ⟨fun s hs k hk => ?_, after⟩
  obtain rfl := List.mem_singleton.mp hk
  exact h s hs

/-- A mark adds a moment and does nothing. -/
theorem marked {o : Occasion} (h : ∀ s, pre s → s.running = true) (hc : Lively pre c post) :
    Lively pre (do mark o; c) post := by
  have noted : Lively pre (mark o) fun _ => pre := .seen h fun s a t hs ha => by
    obtain ⟨-, rfl⟩ := EStateM.Result.ok.inj ha
    exact hs
  exact noted.bind fun _ => hc

/-- Looking at the session. -/
theorem look {f : Session → Chronicle α} (h : ∀ s, Lively (fun t => t = s ∧ pre s) (f s) post) :
    Lively pre (get >>= f) post :=
  ⟨fun s hs => (h s).running s ⟨rfl, hs⟩, fun s a t hs => (h s).after s a t ⟨rfl, hs⟩⟩

/-- Asking the session. -/
theorem ask {q : Session → β} {f : β → Chronicle α}
    (h : ∀ s, Lively (fun t => t = s ∧ pre s) (f (q s)) post) :
    Lively pre ((liftM (Play.ask q) : Chronicle β) >>= f) post :=
  ⟨fun s hs => (h s).running s ⟨rfl, hs⟩, fun s a t hs => (h s).after s a t ⟨rfl, hs⟩⟩

theorem ite (q : Prop) [Decidable q] (h : q → Lively pre c post) (h' : ¬q → Lively pre c' post) :
    Lively pre (if q then c else c') post := by
  split
  · exact h ‹_›
  · exact h' ‹_›

theorem unseen (p : Play α) : Lively pre (liftM p) fun _ _ => True := silent fun _ _ _ _ _ => trivial

theorem pure (a : α) : Lively pre (Pure.pure a) fun _ _ => True := unseen (Pure.pure a)

theorem discarded (h : Lively pre c fun _ _ => True) :
    Lively pre (discard c : Chronicle Unit) fun _ _ => True := h.bind fun _ => .pure ()

end Lively

namespace Livens

variable {c : Chronicle α}

theorem of {pre : Session → Prop} (h : Livens c) : Lively pre c fun _ _ => True :=
  h.weaken (fun _ _ => trivial) fun _ _ h => h

theorem forM {f : α → Chronicle Unit} (l : List α) (h : ∀ a, Livens (f a)) : Livens (l.forM f) := by
  induction l with
  | nil => exact .pure ()
  | cons a l ih => exact Lively.bind (h a) fun _ => ih

end Livens

theorem lively_contract : Contract @Lively := ⟨.bind, .weaken, .pure⟩

end Chronicle

/-! ## The machine -/

open Chronicle

/-- Surroundings of a script that are at work only while it may run. -/
structure Host.Lively (may : Session → Prop) (h : Host Chronicle) : Prop where
  alive : Chronicle.Lively (fun _ => True) h.alive fun going s => going = true → may s
  eval : ∀ e, Chronicle.Lively may (h.eval e) fun _ => may
  perform : ∀ a, Chronicle.Lively may (h.perform a) fun _ _ => True
  count : ∀ name i, Chronicle.Lively may (h.count name i) fun _ _ => True
  addLoop : ∀ loop body, Chronicle.Lively may (h.addLoop loop body) fun _ _ => True
  report : ∀ message, Livens (h.report message)

namespace Host.Lively

variable {may : Session → Prop} {h : Host Chronicle} (hk : Host.Lively may h)
include hk

/-- **The machine is at work only while the script may run**, since it asks before each step. -/
theorem run (frames : List Frame) : Livens (h.run frames) :=
  Host.Bound.run lively_contract
    ⟨hk.alive, hk.eval, hk.perform, hk.count, hk.addLoop, hk.report⟩ frames

end Host.Lively

/-! ## Scripts -/

namespace Chronicle

variable {α : Type}

theorem running_of_mayRun {s : Session} {entity : String} (h : s.mayRun entity = true) :
    s.running = true := (Bool.and_eq_true_iff.mp h).1

/-- Evaluating a text does not stop the session. -/
theorem lively_text (entity : String) (e : Expr) :
    Lively (fun s => s.running = true) (liftM (Play.text entity e)) fun _ s => s.running = true := by
  refine .silent fun s a t running ha => ?_
  obtain ⟨-, rfl⟩ := EStateM.Result.ok.inj ha
  exact running

theorem lively_post (message : String) :
    Lively (fun s => s.running = true) (post message) fun _ _ => True := by
  rw [post]
  split
  · exact .unseen _
  · exact .seen (fun _ => id) fun _ _ _ _ _ => trivial

/-- An action is done while the session is running, if clones are made so. -/
theorem lively_perform {clone : String → Chronicle Unit}
    (hc : ∀ source, Lively (fun s => s.running = true) (clone source) fun _ _ => True)
    (entity : String) (behavior : Nat) (a : Action) :
    Lively (fun s => s.running = true) (perform clone entity behavior a) fun _ _ => True := by
  cases a with
  | createClone source =>
    exact .marked (fun _ => id) ((lively_text _ _).bind fun raw => (hc _).bind fun _ => .pure _)
  | broadcast message =>
    refine .marked (fun _ => id) ((lively_text _ _).bind fun m => ?_)
    exact .ite _ (fun _ => .unseen _) fun _ => (lively_post m).bind fun _ => .pure _
  | _ => exact .seen (fun _ => id) fun _ _ _ _ _ => trivial

theorem lively_host {clone : String → Chronicle Unit}
    (hc : ∀ source, Lively (fun s => s.running = true) (clone source) fun _ _ => True)
    (entity : String) (behavior : Nat) :
    Host.Lively (fun s => s.running = true) (host clone entity behavior) where
  alive := by
    refine ⟨fun s _ k hk => ?_, fun s going t _ h => ?_⟩
    · rw [alive_host] at hk
      split at hk
      · rename_i may
        obtain rfl := List.mem_singleton.mp hk
        exact running_of_mayRun may
      · exact (List.not_mem_nil hk).elim
    · rw [alive_host] at h
      obtain ⟨rfl, rfl⟩ := EStateM.Result.ok.inj h
      exact running_of_mayRun
  eval e := by
    refine .seen (fun _ => id) fun s a t running ha => ?_
    obtain ⟨-, rfl⟩ := EStateM.Result.ok.inj ha
    exact running
  perform := lively_perform hc entity behavior
  count _ _ := .seen (fun _ => id) fun _ _ _ _ _ => trivial
  addLoop _ _ := .seen (fun _ => id) fun _ _ _ _ _ => trivial
  report _ := .unseen _

theorem lively_slice {clone : String → Chronicle Unit}
    (hc : ∀ source, Lively (fun s => s.running = true) (clone source) fun _ _ => True) (t : Task) :
    Livens (slice clone t) := by
  refine Lively.bind ((lively_host hc t.entity t.behavior).run t.frames) fun r => ?_
  cases r <;> exact .pure _

/-! ## Launches and clones -/

/-- A launch in an idle session is not seen. -/
theorem lively_launchWith {clone : String → Chronicle Unit}
    (hc : ∀ source, Lively (fun s => s.running = true) (clone source) fun _ _ => True)
    (entity : String) (b : Behavior) : Livens (launchWith clone entity b) := by
  refine .look fun s => .ite _ (fun _ => .pure _) fun free => ?_
  obtain ⟨running, -⟩ : s.running = true ∧ s.scheduler.isActive entity b.id = false := by
    simpa using free
  refine Lively.bind (m := fun _ _ => True) (.seen ?_ fun _ _ _ _ _ => trivial) fun _ => ?_
  · rintro t ⟨rfl, -⟩
    exact running
  · refine (lively_slice hc _).bind fun left => ?_
    cases left <;> exact (Lively.unseen _).bind fun _ => .pure _

theorem lively_request (source : String) :
    Lively (fun s => s.running = true) (request source) fun _ _ => True :=
  .seen (fun _ => id) fun _ _ _ _ _ => trivial

theorem lively_queueClone (source : String) :
    Lively (fun s => s.running = true) (queueClone source) fun _ _ => True :=
  .discarded (lively_request source)

/-- Working off the queue, within any budget. -/
theorem lively_startClones (budget : Nat) : Livens (startClones budget) := by
  induction budget with
  | zero => exact .unseen _
  | succ budget ih =>
    refine (Lively.unseen _).bind fun next => ?_
    cases next with
    | none => exact .pure ()
    | some id =>
      refine .ask fun s => Lively.bind (m := fun _ _ => True) ?_ fun _ => ih
      exact (Livens.forM _ fun b => .discarded (lively_launchWith lively_queueClone id b)).of

theorem lively_startQueuedClones : Livens startQueuedClones := by
  refine .look fun s => .ite _ (fun _ => ?_) fun _ => .pure ()
  refine Lively.bind (m := fun _ _ => True) (.unseen _) fun _ => ?_
  exact (lively_startClones _).bind fun _ => .unseen _

theorem lively_makeClone (source : String) :
    Lively (fun s => s.running = true) (makeClone source) fun _ _ => True := by
  refine .discarded ((lively_request source).bind fun r => ?_)
  cases r with
  | error e => exact .pure _
  | ok id => exact lively_startQueuedClones.bind fun _ => .pure _

/-- **What is seen of a launch is seen while the session is running.** -/
theorem lively_launch (entity : String) (b : Behavior) : Livens (launch entity b) :=
  lively_launchWith lively_makeClone entity b

end Chronicle

end BlockStage
