/-
  Pausing: when the slice of a script returns, and what it has seen.

  1. **Returning steps** — a step may break off.  What holds of the answer and the session if it
     returns is `Play.After`; a step that brings a property back whenever it returns is
     `Play.Restores`.  What deeds keep is restored by every script (`closed_restores`).

  2. **The crux** — a script asks whether it may go on before each of its blocks, and what makes it
     pause does not stop the session.  So a script that pauses has seen the session running
     (`running_of_paused`): its task may be put back among the waiting ones.
-/
import BlockStage.Proofs.Session.Round

namespace BlockStage

/-- What a task is an instance of: a behavior on an entity. -/
def Task.key (t : Task) : String × Nat := (t.entity, t.behavior)

/-! ## What holds when a step returns -/

/-- What holds of the answer and the session if a step returns. -/
def Play.After {α : Type} (p : Play α) (s : Session) (Q : α → Session → Prop) : Prop :=
  match p s with
  | .ok a t => Q a t
  | .error _ _ => True

namespace Play.After

variable {α β : Type} {p : Play α} {s : Session} {Q R : α → Session → Prop}

theorem of_eq (h : Play.After p s Q) {a : α} {t : Session} (hp : p s = .ok a t) : Q a t := by
  rw [Play.After, hp] at h
  exact h

theorem bind {f : α → Play β} {S : β → Session → Prop} (hp : Play.After p s Q)
    (hf : ∀ a t, Q a t → Play.After (f a) t S) : Play.After (p >>= f) s S := by
  rw [Play.After]
  cases hr : p s with
  | ok a t =>
    rw [Play.bind_of_ok hr]
    exact hf a t (hp.of_eq hr)
  | error e t =>
    rw [Play.bind_of_error hr]
    trivial

/-- What holds of the session that a step leaves behind holds if it returns. -/
theorem of_last {I : Session → Prop} (h : I (p.last s)) : Play.After p s fun _ t => I t := by
  rw [Play.After]
  split
  · rename_i hp
    rw [Play.last_of_ok hp] at h
    exact h
  · trivial

/-- Nothing is asked of the outcome. -/
theorem any (p : Play α) (s : Session) : Play.After p s fun _ _ => True := by
  rw [Play.After]
  split <;> trivial

theorem get_bind {f : Session → Play β} {S : β → Session → Prop} (h : Play.After (f s) s S) :
    Play.After (get >>= f) s S := h

theorem ask_bind {g : Session → α} {f : α → Play β} {S : β → Session → Prop}
    (h : Play.After (f (g s)) s S) : Play.After (Play.ask g >>= f) s S := h

theorem mono (hp : Play.After p s Q) (h : ∀ a t, Q a t → R a t) : Play.After p s R := by
  rw [Play.After] at hp ⊢
  split at hp
  · exact h _ _ hp
  · trivial

theorem and (hp : Play.After p s Q) (hr : Play.After p s R) :
    Play.After p s fun a t => Q a t ∧ R a t := by
  rw [Play.After] at hp hr ⊢
  split at hp
  · rename_i a t h
    rw [h] at hr
    exact ⟨hp, hr⟩
  · trivial

end Play.After

/-- A step that brings a property back whenever it returns. -/
def Play.Restores (I : Session → Prop) {α : Type} (p : Play α) : Prop :=
  ∀ s, I s → Play.After p s fun _ t => I t

namespace Session

/-- A property that deeds keep is restored by what is put together from attempts. -/
theorem trying_restores {I : Session → Prop} (hI : ∀ {s t}, Deed s t → I s → I t) :
    Play.Trying (Play.Restores I) where
  bind hp hf s hs := (hp s hs).bind fun a t ht => hf a t ht
  attempt {α f} hf _ s hs := by
    have kept := (hf.deeds s).keep (fun _ _ => hI) hs
    rw [Play.After, Play.attempt]
    rcases hr : f s with ⟨_ | _, t⟩
    · trivial
    · rw [hr] at kept
      exact kept

theorem closed_restores {I : Session → Prop} (hI : ∀ {s t}, Deed s t → I s → I t) :
    Play.Closed (Play.Restores I) := (trying_restores hI).closed

/-! ## Pausing -/

/-- What holds all along, and of the session when a script may go on, tells what holds when it has
    paused. -/
theorem run_paused {I A : Session → Prop} {Q : Pause → Session → Prop} {h : Host Play}
    (alive : ∀ s, I s → Play.After h.alive s fun a t => I t ∧ (a = true → A t))
    (resolve : ∀ st s, I s → A s →
      Play.After (h.resolve st) s fun o t => I t ∧ ∀ p, o = .pause p → Q p t)
    (again : ∀ kind s, I s → Play.After (h.again kind) s fun _ t => I t)
    (tick : ∀ s, I s → A s → Q .tick s) (frames : List Frame) (s : Session) (hs : I s) :
    Play.After (h.run frames) s fun r t => ∀ fs p, r = .paused fs p → Q p t := by
  -- a pause is reached past a statement or a turn, and each of these asked before it ran
  have rest : ∀ left, Frame.weights left < Frame.weights frames → ∀ s, I s →
      Play.After (h.run left) s fun r t => ∀ fs p, r = .paused fs p → Q p t :=
    fun left _ => run_paused alive resolve again tick left
  have finished : ∀ s, Play.After (Pure.pure Slice.finished) s
      fun r t => ∀ fs p, r = .paused fs p → Q p t := fun _ _ _ h => (by cases h)
  cases frames with
  | nil =>
    rw [Host.run.eq_def]
    refine (alive s hs).bind fun a t _ => ?_
    cases a <;> exact finished t
  | cons f fs =>
    cases ht : f.take? with
    | some taken =>
      obtain ⟨st, g⟩ := taken
      rw [Host.run_take ht]
      refine (alive s hs).bind fun a t may => ?_
      cases a with
      | false => exact finished t
      | true =>
        refine (resolve st t may.1 (may.2 rfl)).bind fun o u hu => ?_
        have next := rest (st.enter o ++ g :: fs) (Frame.weights_enter_lt ht o fs) u hu.1
        cases o with
        | pause p =>
          rintro _ _ ⟨⟩
          exact hu.2 p rfl
        | finish => exact finished u
        | _ => exact next
    | none =>
      rw [Host.run_over ht]
      refine (alive s hs).bind fun a t may => ?_
      cases a with
      | false => exact finished t
      | true =>
        cases f with
        | sequence l => exact rest fs (Frame.weights_lt_cons _ fs) t may.1
        | loop kind body l =>
          rintro _ _ ⟨⟩
          exact tick t may.1 (may.2 rfl)
        | turned kind body =>
          refine (again kind t may.1).bind fun turn u hu => ?_
          cases turn with
          | none => exact rest fs (Frame.weights_lt_cons _ fs) u hu
          | some next =>
            exact rest (.loop next body body :: fs) (Frame.weights_turn_lt kind next body fs) u hu
termination_by Frame.weights frames

/-- A step that does not ask the script to pause. -/
structure Unpausing (p : Play Flow) : Prop where
  flows : ∀ s, Play.After p s fun flow _ => ∀ q, flow ≠ .pause q

theorem unpausing_bind {α : Type} {p : Play α} {f : α → Play Flow} (hf : ∀ a, Unpausing (f a)) :
    Unpausing (p >>= f) := by
  constructor
  intro s
  exact (Play.After.any p s).bind fun a t _ => (hf a).flows t

theorem unpausing_pure {flow : Flow} (h : ∀ q, flow ≠ .pause q) : Unpausing (pure flow) :=
  ⟨fun _ => h⟩

theorem unpausing_proceed : Unpausing (pure .proceed) := unpausing_pure fun _ h => (by cases h)

theorem unpausing_finish : Unpausing (pure .finish) := unpausing_pure fun _ h => (by cases h)

theorem unpausing_complain (entity block detail : String) :
    Unpausing (Play.complain entity block detail) := unpausing_bind fun _ => unpausing_proceed

theorem unpausing_doing {α : Type} (f : Session → α × Session) : Unpausing (Play.doing f) :=
  unpausing_bind fun _ => unpausing_proceed

theorem unpausing_ite {p q : Play Flow} (c : Prop) [Decidable c] (hp : Unpausing p)
    (hq : Unpausing q) : Unpausing (if c then p else q) := by
  split
  · exact hp
  · exact hq

theorem unpausing_trying (entity block detail : String) (f : Session → Bool × Session) :
    Unpausing (Play.trying entity block detail f) :=
  unpausing_bind fun _ => unpausing_ite _ unpausing_proceed (unpausing_complain _ _ _)

theorem unpausing_withBody (entity : String) (f : Session → Bool × Session) :
    Unpausing (Play.withBody entity f) :=
  unpausing_bind fun _ => unpausing_ite _ unpausing_proceed (unpausing_pure fun _ h => (by cases h))

/-- A step that asks the script to pause only while the session runs. -/
structure Awake (p : Play Flow) : Prop where
  running : ∀ s : Session, s.running = true →
    Play.After p s fun flow t => ∀ q, flow = .pause q → t.running = true

theorem Unpausing.awake {p : Play Flow} (h : Unpausing p) : Awake p :=
  ⟨fun s _ => (h.flows s).mono fun _ _ never q hq => absurd hq (never q)⟩

end Session

/-- May an action make its script pause? -/
def Action.MayPause : Action → Prop
  | .glide _ _ _ => True
  | .playSound _ _ => True
  | .wait _ => True
  | _ => False

namespace Session

/-- Only gliding, playing and waiting make an action pause. -/
theorem unpausing_perform {clone : String → Play Unit} (entity : String) {a : Action}
    (ha : ¬a.MayPause) : Unpausing (Play.perform clone entity a) := by
  cases a with
  | glide _ _ _ | playSound _ _ | wait _ => exact absurd trivial ha
  | moveSteps _ | turn _ | changeX _ | changeY _ | setScale _ | changeScale _ | setDepth _ =>
    exact unpausing_bind fun _ => unpausing_doing _
  | goTo _ _ => exact unpausing_bind fun _ => unpausing_bind fun _ => unpausing_doing _
  | setX _ | setY _ | pointDirection _ | pointTowards _ | goToTarget _ | switchCostume _
  | setVariable _ _ | changeVariable _ _ =>
    exact unpausing_bind fun _ => unpausing_trying _ _ _ _
  | enablePhysics | setVisible _ | nextCostume | detach => exact unpausing_doing _
  | setVelocity _ _ =>
    exact unpausing_bind fun _ => unpausing_bind fun _ => unpausing_withBody _ _
  | setGravityScale _ => exact unpausing_bind fun _ => unpausing_withBody _ _
  | stopAllSounds | resetTimer => exact unpausing_bind fun _ => unpausing_proceed
  | stopAll | stopSelf | deleteSelf => exact unpausing_bind fun _ => unpausing_finish
  | createClone _ | log _ =>
    exact unpausing_bind fun _ => unpausing_bind fun _ => unpausing_proceed
  | broadcast _ | switchScene _ =>
    exact unpausing_bind fun _ => unpausing_ite _ (unpausing_complain _ _ _)
      (unpausing_bind fun _ => unpausing_proceed)
  | attachTo _ =>
    refine unpausing_bind fun _ => unpausing_bind fun r => ?_
    cases r with
    | ok _ => exact unpausing_proceed
    | error _ => exact unpausing_pure fun _ h => (by cases h)

/-- What makes a script pause does not stop the session. -/
theorem awake_perform {clone : String → Play Unit} (entity : String) (a : Action) :
    Awake (Play.perform clone entity a) := by
  cases a with
  | glide seconds x y =>
    refine ⟨fun s hs => ?_⟩
    have value : ∀ (e : Expr) (t : Session), t.running = true →
        Play.After (Play.single entity e) t fun _ u => u.running = true := fun _ _ h => h
    have begun : ∀ (t : Session) (d : Float) (goal : Vec Float32), t.running = true →
        Play.After (Play.changing fun s => s.beginGlide entity d goal) t fun g u =>
          g.isSome = true → u.running = true := by
      intro t d goal ht
      show (t.beginGlide entity d goal).1.isSome = true → (t.beginGlide entity d goal).2.running = true
      rw [beginGlide]
      split
      · exact fun _ => ht
      · split
        · exact fun h => (by cases h)
        · exact fun _ => ht
    refine Play.After.bind (Q := fun _ t => t.running = true) hs fun d t ht => ?_
    refine (value x t ht).bind fun x u hu => (value y u hu).bind fun y v hv => ?_
    refine (begun v d _ hv).bind fun g w hw => ?_
    cases g with
    | some g => exact fun _ _ => hw rfl
    | none => exact fun _ h => (by cases h)
  | playSound key wait =>
    refine ⟨fun s hs => ?_⟩
    refine Play.After.bind (Q := fun _ t => t.running = true) hs fun key t ht => ?_
    refine Play.After.bind (Q := fun _ u => u.running = true) ?_ fun handle u hu => ?_
    · refine Play.After.bind (Q := fun _ u => u.running = true) ht fun sound u hu => ?_
      cases sound with
      | none => exact hu
      | some sound =>
        refine Play.After.bind (Q := fun _ u => u.running = true) hu fun played v hv => ?_
        rcases played with e | ⟨handle, stop⟩
        · trivial
        · exact hv
    · cases handle with
      | some handle => exact fun _ _ => hu
      | none => exact ((unpausing_complain _ _ _).flows u).mono fun flow _ h p hp => absurd hp (h p)
  | wait seconds => exact ⟨fun s hs _ _ => hs⟩
  | _ => exact Unpausing.awake (unpausing_perform entity id)

/-- A task that has paused has seen the session running. -/
theorem running_of_paused (clone : String → Play Unit) (t : Task) (s : Session) :
    Play.After (Play.runSlice clone t) s fun left u => ∀ t', left = some t' →
      t'.key = t.key ∧ u.running = true := by
  have alive : ∀ s, True → Play.After (Play.host clone t.entity).alive s fun a u =>
      True ∧ (a = true → u.running = true) :=
    fun s _ => ⟨trivial, fun h => (Bool.and_eq_true_iff.mp h).1⟩
  have resolve : ∀ st s, True → s.running = true →
      Play.After ((Play.host clone t.entity).resolve st) s fun o u =>
        True ∧ ∀ p, o = .pause p → u.running = true := by
    intro st s _ hs
    suffices Play.After ((Play.host clone t.entity).resolve st) s fun o u =>
        ∀ p, o = .pause p → u.running = true from this.mono fun _ _ h => ⟨trivial, h⟩
    have value : ∀ e, Play.After ((Play.host clone t.entity).eval e) s
        fun _ u => u.running = true := fun _ => hs
    cases st with
    | action a =>
      refine ((awake_perform t.entity a).running s hs).bind fun flow u h => ?_
      cases flow with
      | pause p => exact fun _ _ => h p rfl
      | proceed => exact fun _ h => (by cases h)
      | finish => exact fun _ h => (by cases h)
      | fail message => exact fun _ h => (by cases h)
    | forever loop body => exact fun _ h => (by cases h)
    | waitUntil condition => exact (value condition).bind fun _ _ hu _ _ => hu
    | branch condition yes no =>
      refine (value condition).bind fun v _ hu => ?_
      cases v.toBool <;> exact fun _ h => (by cases h)
    | repeatTimes times body => exact (value times).bind fun _ _ hu _ _ => hu
    | repeatUntil condition body => exact (value condition).bind fun _ _ hu _ _ => hu
    | forEach name count body =>
      refine (value count).bind fun v u hu => ?_
      by_cases h : toNat64 (floorOf v.toNumber) = 0
      · rw [if_pos h]
        exact fun _ _ => hu
      · rw [if_neg h]
        exact fun _ _ => hu
  refine (run_paused (Q := fun _ u => u.running = true) alive resolve (fun _ s _ => .any _ s)
    (fun _ _ h => h) t.frames s trivial).bind fun r u paused => ?_
  cases r with
  | finished => exact fun _ h => (by cases h)
  | paused frames p =>
    rintro _ ⟨⟩
    exact ⟨rfl, paused frames p rfl⟩

end Session

end BlockStage
