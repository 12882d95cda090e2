/-
  What every script keeps.

  1. **Steps** — a step of a session is put together from single steps, each of which changes the
     session by deeds.  A property of steps that sequencing keeps, that skills have and the playing
     of sounds, which may break off, is `Play.Weaving`.  Telling hosts of something asks for a little
     more (`Play.Telling`), and so does noting touches (`Play.Noting`); adding loops asks that tidy
     acts have the property (`Play.Tidying`).  If all acts have it, it is `Play.Closed`.  What holds
     of every attempt, whether or not it breaks off, holds of playing (`Play.Trying`).

  2. **The crux** — making clones is the one thing that a script does not do by deeds, and queueing
     messages the one deed that is no feat.  So the lemmas below go from the property for these two
     to the property for an action (`Weaving.perform`), and from there along the recursion of the
     machine to a slice of a script (`Tidying.runSlice`).
-/
import BlockStage.Proofs.Session.Deed

namespace BlockStage

namespace Play

theorem changing_apply {α : Type} (f : Session → α × Session) (s : Session) :
    changing f s = .ok (f s).1 (f s).2 := rfl

section
variable {α β : Type} {p : Play α} {f : α → Play β} {s t : Session}

theorem bind_of_ok {a : α} (h : p s = .ok a t) : (p >>= f) s = f a t := by
  show EStateM.bind p f s = f a t
  rw [EStateM.bind, h]

theorem bind_of_error {e : Fault} (h : p s = .error e t) : (p >>= f) s = .error e t := by
  show EStateM.bind p f s = .error e t
  rw [EStateM.bind, h]

/-- A step that returns ends with an answer. -/
theorem eq_of_returns (h : p.returns s = true) : ∃ a, p s = .ok a (p.last s) := by
  rw [returns] at h
  cases hp : p s with
  | ok a t => exact ⟨a, by rw [last_of_ok hp]⟩
  | error e t =>
    rw [hp] at h
    cases h

/-- Steps that answer one after the other have each answered. -/
theorem ok_of_bind {b : β} {u : Session} (h : (p >>= f) s = .ok b u) :
    ∃ a t, p s = .ok a t ∧ f a t = .ok b u := by
  cases hp : p s with
  | ok a t =>
    rw [bind_of_ok hp] at h
    exact ⟨a, t, rfl, h⟩
  | error e t =>
    rw [bind_of_error hp] at h
    cases h

/-- Steps return one after the other only if each of them does. -/
theorem returns_of_bind (h : (p >>= f).returns s = true) :
    ∃ a, p s = .ok a (p.last s) ∧ (f a).returns (p.last s) = true := by
  rw [returns] at h
  cases hp : p s with
  | ok a t =>
    rw [bind_of_ok hp] at h
    exact ⟨a, by rw [last_of_ok hp], by rw [last_of_ok hp]; exact h⟩
  | error e t =>
    rw [bind_of_error hp] at h
    cases h

theorem last_congr {q : Play α} (h : p s = q s) : p.last s = q.last s := by
  rw [last, last, h]

theorem returns_congr {q : Play α} (h : p s = q s) : p.returns s = q.returns s := by
  rw [returns, returns, h]

theorem last_bind_of_ok {a : α} (h : p s = .ok a t) : (p >>= f).last s = (f a).last t := by
  rw [last, bind_of_ok h]
  rfl

/-- What each of two steps does to a session, whether or not it breaks off, both do one after the
    other. -/
theorem last_bind {R : Session → Session → Prop} (trans : ∀ {s t u}, R s t → R t u → R s u)
    (hp : ∀ s, R s (p.last s)) (hf : ∀ a s, R s ((f a).last s)) (s : Session) :
    R s ((p >>= f).last s) := by
  have first := hp s
  cases hr : p s with
  | ok a t =>
    rw [last_of_ok hr] at first
    rw [last, bind_of_ok hr]
    exact trans first (hf a t)
  | error e t =>
    rw [last, hr] at first
    rw [last, bind_of_error hr]
    exact first

end

/-- A change of the session that may break off. -/
def attempt {α : Type} (f : Session → Except Fault α × Session) : Play α := fun s =>
  match f s with
  | (.ok a, t) => .ok a t
  | (.error e, t) => .error e t

@[simp] theorem last_change (f : Session → Session) (s : Session) : (change f).last s = f s := rfl

theorem last_attempt {α : Type} (f : Session → Except Fault α × Session) (s : Session) :
    (attempt f).last s = (f s).2 := by
  rw [last, attempt]
  rcases f s with ⟨_ | _, t⟩ <;> rfl

theorem attempt_bind {α β : Type} (f : Session → Except Fault α × Session) (g : α → Play β) :
    attempt f >>= g = (do
      match ← changing f with
      | .error e => throw e
      | .ok a => g a) := by
  funext s
  rw [bind_of_ok (changing_apply f s)]
  rcases hr : f s with ⟨e | a, t⟩
  · exact bind_of_error (by rw [attempt, hr])
  · exact bind_of_ok (by rw [attempt, hr])

/-- A property of steps that sequencing keeps and that skills and the playing of sounds have. -/
structure Weaving (P : ∀ {α : Type}, Play α → Prop) : Prop where
  bind : ∀ {α β : Type} {p : Play α} {f : α → Play β}, P p → (∀ a, P (f a)) → P (p >>= f)
  skill : ∀ {α : Type} {f : Session → α × Session}, Session.Skill f → P (changing f)
  playSound : ∀ id key, P (Play.playSound id key)

/-- Such a property that changes beside the stage and the tasks have, as long as they leave alone
    what scripts leave alone. -/
structure Telling (P : ∀ {α : Type}, Play α → Prop) : Prop extends Weaving @P where
  tell : ∀ {α : Type} {f : Session → α × Session}, (∀ s : Session, s.Aside (f s).2) →
    Session.Apart f → (∀ s : Session, s.Spares (f s).2) → P (changing f)

/-- Such a property that the noting of touches has as well. -/
structure Noting (P : ∀ {α : Type}, Play α → Prop) : Prop extends Telling @P where
  note : ∀ {α : Type} {f : Session → α × Session}, (∀ s : Session, s.Aside (f s).2) →
    Session.Apart f → (∀ s, (f s).2.sounds = s.sounds) →
    (∀ s : Session, s.player.Evolves (f s).2.player) → P (changing f)
  tell := fun hf apart kept => note hf apart (fun s => (kept s).sounds) fun s => (kept s).player

/-- A property of steps that sequencing keeps and that all tidy acts have. -/
structure Tidying (P : ∀ {α : Type}, Play α → Prop) : Prop extends Telling @P where
  tidy : ∀ {α : Type} {f : Session → α × Session}, Session.Tidy f → P (changing f)
  skill := fun hf => tidy hf.tidy
  tell := fun hf apart kept => tidy (Session.tidy_aside _ hf apart kept)

/-- Such a property that all acts have. -/
structure Closed (P : ∀ {α : Type}, Play α → Prop) : Prop extends Tidying @P where
  act : ∀ {α : Type} {f : Session → α × Session}, Session.Act f → P (changing f)
  tidy := fun hf => act hf.act

theorem Closed.noting {P : ∀ {α : Type}, Play α → Prop} (hP : Closed @P) : Noting @P where
  toTelling := hP.toTelling
  note hf apart sounds player := hP.act (Session.act_aside _ hf apart sounds player)

namespace Tidying

variable {P : ∀ {α : Type}, Play α → Prop} (hP : Tidying @P) {α : Type}
include hP

theorem change {f : Session → Session} (hf : Session.Tidy fun s => ((), f s)) :
    P (Play.change f) := hP.tidy hf

omit hP in
theorem ite (c : Prop) [Decidable c] {p q : Play α} (hp : P p) (hq : P q) :
    P (if c then p else q) := by
  split
  · exact hp
  · exact hq

end Tidying

namespace Weaving

variable {P : ∀ {α : Type}, Play α → Prop} (hP : Weaving @P) {α β : Type}
include hP

/-! ## Single steps -/

/-- A change of which only the feats count. -/
theorem skilled {f : Session → Session} (hf : Session.Skill fun s => ((), f s)) :
    P (Play.change f) := hP.skill hf

theorem ask (f : Session → α) (hf : ∀ s d, f (s.under d) = f s) : P (Play.ask f) :=
  hP.skill (Session.skill_ask f hf)

theorem pure (a : α) : P (pure a : Play α) := hP.ask (fun _ => a) fun _ _ => rfl

theorem map {p : Play α} (f : α → β) (hp : P p) : P (f <$> p) := by
  rw [map_eq_pure_bind]
  exact hP.bind hp fun a => hP.pure (f a)

theorem discarded {p : Play α} (hp : P p) : P (discard p : Play Unit) := hP.map _ hp

theorem forM {f : α → Play Unit} (l : List α) (hf : ∀ a ∈ l, P (f a)) : P (l.forM f) := by
  induction l with
  | nil => exact hP.pure ()
  | cons a l ih =>
    obtain ⟨first, others⟩ := List.forall_mem_cons.mp hf
    exact hP.bind first fun _ => ih others

/-- Looking at the session is asking it what to do. -/
theorem look_of_ask {f : Session → Play α} (asked : P (Play.ask f)) (hp : ∀ s, P (f s)) :
    P (get >>= f) := by
  classical
  -- only steps of the property are ever chosen, so for all others any of these may stand in
  have same : (get >>= f)
      = Play.ask f >>= fun p => if P p then p else f (.new .usual) := by
    funext s
    show f s s = (if P (f s) then f s else f (.new .usual) : Play α) s
    rw [if_pos (hp s)]
  rw [same]
  refine hP.bind asked fun p => ?_
  by_cases h : P p
  · rw [if_pos h]
    exact h
  · rw [if_neg h]
    exact hp _

/-- Looking at the session, as long as tasks and the clone budget do not matter. -/
theorem look {f : Session → Play α} (hf : ∀ s d, f (s.under d) = f s) (hp : ∀ s, P (f s)) :
    P (get >>= f) := hP.look_of_ask (hP.ask f hf) hp

end Weaving

end Play

/-! ## Evaluation and sounds -/

theorem Expr.eval_under (s : Session) (d : Session.Disguise) (entity : String) (e : Expr) :
    e.eval (s.under d) entity = e.eval s entity := by
  induction e <;> simp only [Expr.eval, *] <;> rfl

/-- Adding a looping behavior registers it in the entity's catalog, where there is one. -/
theorem Session.addLoop_cases (entity : String) (loop : Nat) (body : List Stmt) (s : Session) :
    (∃ c, s.catalogs.get? entity = some c ∧ (Play.addLoop entity loop body).last s =
        { s with
          catalogs := s.catalogs.insert entity (c.register ⟨loop, .forever, body⟩).2 }) ∨
      (Play.addLoop entity loop body).last s = s := by
  rw [Play.addLoop, Play.last_change]
  cases s.catalogs.get? entity with
  | some c => exact .inl ⟨c, rfl, rfl⟩
  | none => exact .inr rfl

/-- Adding a looping behavior to a catalog is a feat. -/
theorem Session.feats_addLoop (entity : String) (loop : Nat) (body : List Stmt) (s : Session) :
    Feats s ((Play.addLoop entity loop body).last s) := by
  rcases addLoop_cases entity loop body s with ⟨c, hc, after⟩ | same
  · exact after ▸ .one (.loop loop body hc)
  · exact same.symm ▸ .refl s

theorem Session.tidy_addLoop (entity : String) (loop : Nat) (body : List Stmt) :
    Tidy fun s => ((),
      match s.catalogs.get? entity with
      | some c =>
        { s with catalogs := s.catalogs.insert entity (c.register ⟨loop, .forever, body⟩).2 }
      | none => s) where
  deeds s := (feats_addLoop entity loop body s).deeds
  apart s d := by
    simp only [catalogs_under]
    split <;> rfl
  kept s := by
    dsimp only
    split <;> exact ⟨rfl, .refl _⟩

/-- The length of a sound is at fault or fine, and takes no steps. -/
theorem Player.play_error {p : Player} {entity : String} {sound : Sound} {now : Float} {e : Fault}
    (h : (p.play entity sound now).1 = .error e) : e = .negativeSoundLength := by
  have length : ∀ e, sound.trimmedLength = .error e → e = .negativeSoundLength := by
    intro e he
    rw [Sound.trimmedLength] at he
    split at he
    · cases he
    · split at he
      · exact (Except.error.inj he).symm
      · split at he
        · exact (Except.error.inj he).symm
        · cases he
  rw [Player.play] at h
  dsimp only at h
  split at h
  · rename_i fault hf
    exact Except.error.inj h ▸ length fault hf
  · cases h

namespace Play

/-- What sequencing keeps and every attempt by feats has, save one that uses up the clone budget,
    the playing of sounds has. -/
theorem Weaving.of_attempts {P : ∀ {α : Type}, Play α → Prop}
    (bind : ∀ {α β : Type} {p : Play α} {f : α → Play β}, P p → (∀ a, P (f a)) → P (p >>= f))
    (weave : ∀ {α : Type} {f : Session → Except Fault α × Session}, Session.Skill f →
      (∀ s, (f s).1 ≠ .error .budgetExhausted) → P (attempt f)) : Weaving @P := by
  have skill : ∀ {α : Type} {f : Session → α × Session}, Session.Skill f → P (changing f) := by
    intro α f hf
    refine weave (f := fun s => (.ok (f s).1, (f s).2)) ⟨hf.tricks, fun s d => ?_, hf.kept⟩ ?_
    · dsimp only
      rw [hf.apart s d]
    · intro s h
      cases h
  have answer : ∀ {α : Type} (a : α), P (Pure.pure a : Play α) :=
    fun a => skill (Session.skill_ask (fun _ => a) fun _ _ => rfl)
  have find : ∀ key, P (Play.ask fun s => s.sound? key) :=
    fun _ => skill (Session.skill_ask _ fun _ _ => rfl)
  refine ⟨bind, skill, fun id key => bind (find key) fun sound => ?_⟩
  cases sound with
  | none => exact answer none
  | some sound =>
    have played := weave
      (f := fun s =>
        let r := s.player.play id sound s.now
        (r.1, { s with player := r.2 }))
      ⟨fun s => .beside ⟨⟨rfl, rfl⟩, rfl, rfl⟩, fun _ _ => rfl,
        fun s => ⟨rfl, .one (.play id sound s.now)⟩⟩ fun s h => by
        cases Player.play_error h
    -- playing may break off, so it is one attempt together with what it answers
    have all := bind played fun a =>
      bind (skill (Session.skill_note .action (id ++ " played sound " ++ sound.id)))
        fun _ => answer (some a.1)
    rw [attempt_bind] at all
    refine (congrArg (@P (Option Nat)) (bind_congr fun played => ?_)).mp all
    rcases played with e | ⟨handle, stop⟩ <;> rfl

/-- A property of steps that sequencing keeps and that holds of every attempt, save of one that uses
    up the clone budget. -/
structure Trying (P : ∀ {α : Type}, Play α → Prop) : Prop where
  bind : ∀ {α β : Type} {p : Play α} {f : α → Play β}, P p → (∀ a, P (f a)) → P (p >>= f)
  attempt : ∀ {α : Type} {f : Session → Except Fault α × Session}, Session.Act f →
    (∀ s, (f s).1 ≠ .error .budgetExhausted) → P (attempt f)

namespace Trying

variable {P : ∀ {α : Type}, Play α → Prop} (hP : Trying @P) {α : Type}
include hP

theorem closed : Closed @P where
  toWeaving := .of_attempts hP.bind fun hf => hP.attempt hf.act
  act {α f} hf := by
    refine hP.attempt (f := fun s => (.ok (f s).1, (f s).2))
      ⟨hf.deeds, fun s d => ?_, hf.sounds, hf.player⟩ ?_
    · dsimp only
      rw [hf.apart s d]
    · intro s h
      cases h

theorem fault {e : Fault} (he : e ≠ .budgetExhausted) : P (throw e : Play α) :=
  hP.attempt (f := fun s => (.error e, s))
    ⟨fun s => .refl s, fun _ _ => rfl, fun _ => rfl, fun _ => .refl _⟩
    fun _ h => he (Except.error.inj h)

end Trying

namespace Weaving

variable {P : ∀ {α : Type}, Play α → Prop} (hP : Weaving @P) {α : Type}
include hP

theorem evaluate (entity : String) (e : Expr) : P (Play.evaluate entity e) := by
  refine hP.skill ⟨fun s => .beside ⟨⟨rfl, rfl⟩, rfl, rfl⟩, fun s d => ?_, fun _ => ⟨rfl, .refl _⟩⟩
  simp only [Expr.eval_under]
  rfl

/-! ## Actions -/

theorem complain (entity block detail : String) : P (Play.complain entity block detail) :=
  hP.bind (hP.skilled (Session.skill_note _ _)) fun _ => hP.pure _

theorem doing {f : Session → α × Session} (hf : Session.Skill f) : P (Play.doing f) :=
  hP.bind (hP.skilled hf.change) fun _ => hP.pure _

theorem trying (entity block detail : String) {f : Session → Bool × Session}
    (hf : Session.Skill f) : P (Play.trying entity block detail f) := by
  refine hP.bind (hP.skill hf) fun done => ?_
  cases done with
  | true => exact hP.pure _
  | false => exact hP.complain _ _ _

theorem withBody (entity : String) {f : Session → Bool × Session} (hf : Session.Skill f) :
    P (Play.withBody entity f) := by
  refine hP.bind (hP.skill hf) fun done => ?_
  cases done <;> exact hP.pure _

theorem number (entity : String) (e : Expr) : P (Play.number entity e) :=
  hP.bind (hP.evaluate entity e) fun _ => hP.pure _

theorem single (entity : String) (e : Expr) : P (Play.single entity e) :=
  hP.bind (hP.number entity e) fun _ => hP.pure _

theorem text (entity : String) (e : Expr) : P (Play.text entity e) :=
  hP.bind (hP.evaluate entity e) fun _ => hP.pure _

theorem sound (entity key : String) (wait : Bool) : P (Play.sound entity key wait) := by
  refine hP.bind (hP.playSound entity key) fun handle => ?_
  cases handle with
  | some handle => exact hP.pure _
  | none => exact hP.complain _ _ _

/-- An action keeps what making a clone and queueing a message keep. -/
theorem perform {clone : String → Play Unit} (entity : String) (a : Action)
    (hc : ∀ source, a = .createClone source → ∀ id, P (clone id))
    (hb : ∀ message, a = .broadcast message → ∀ m, P (Play.change fun s => s.broadcast m)) :
    P (Play.perform clone entity a) := by
  -- each action evaluates its inputs in order and then acts; only two of the acts are no feats
  cases a with
  | moveSteps steps => exact hP.bind (hP.single _ _) fun n => hP.doing (Session.skill_moveSteps _ n)
  | turn degrees => exact hP.bind (hP.single _ _) fun d => hP.doing (Session.skill_turn _ d)
  | goTo x y =>
    exact hP.bind (hP.single _ _) fun x => hP.bind (hP.single _ _) fun y =>
      hP.doing (Session.skill_goTo _ _ _)
  | changeX amount =>
    exact hP.bind (hP.single _ _) fun d => hP.doing (Session.skill_changePosition _ _)
  | changeY amount =>
    exact hP.bind (hP.single _ _) fun d => hP.doing (Session.skill_changePosition _ _)
  | setX x => exact hP.bind (hP.single _ _) fun x => hP.trying _ _ _ (Session.skill_goTo _ _ _)
  | setY y => exact hP.bind (hP.single _ _) fun y => hP.trying _ _ _ (Session.skill_goTo _ _ _)
  | pointDirection degrees =>
    exact hP.bind (hP.single _ _) fun d => hP.trying _ _ _ (Session.skill_pointInDirection _ d)
  | pointTowards target =>
    exact hP.bind (hP.text _ _) fun t => hP.trying _ _ _ (Session.skill_pointTowards _ t)
  | goToTarget target =>
    exact hP.bind (hP.text _ _) fun t => hP.trying _ _ _ (Session.skill_goToTarget _ t)
  | glide seconds x y =>
    refine hP.bind (hP.number _ _) fun d => hP.bind (hP.single _ _) fun x =>
      hP.bind (hP.single _ _) fun y => hP.bind (hP.skill (Session.skill_beginGlide _ d _)) fun g => ?_
    cases g <;> exact hP.pure _
  | enablePhysics => exact hP.doing (Session.skill_enablePhysics _)
  | setVelocity x y =>
    exact hP.bind (hP.single _ _) fun x => hP.bind (hP.single _ _) fun y =>
      hP.withBody _ (Session.skill_setVelocity _ _)
  | setGravityScale scale =>
    exact hP.bind (hP.single _ _) fun k => hP.withBody _ (Session.skill_setGravityScale _ k)
  | setVisible visible => exact hP.doing (Session.skill_setVisible _ _)
  | switchCostume key =>
    exact hP.bind (hP.text _ _) fun key => hP.trying _ _ _ (Session.skill_switchCostume _ key)
  | nextCostume => exact hP.doing (Session.skill_nextCostume _)
  | setScale scale => exact hP.bind (hP.single _ _) fun k => hP.doing (Session.skill_setScale _ k)
  | changeScale delta =>
    exact hP.bind (hP.single _ _) fun d => hP.doing (Session.skill_changeScale _ d)
  | setDepth depth => exact hP.bind (hP.number _ _) fun d => hP.doing (Session.skill_setDepth _ _)
  | playSound key wait => exact hP.bind (hP.text _ _) fun key => hP.sound _ key wait
  | stopAllSounds => exact hP.bind (hP.skilled Session.skill_stopAllSounds) fun _ => hP.pure _
  | wait seconds =>
    exact hP.bind (hP.number _ _) fun d => hP.bind (hP.ask _ fun _ _ => rfl) fun now => hP.pure _
  | stopAll => exact hP.bind (hP.skilled Session.skill_stopAll) fun _ => hP.pure _
  | stopSelf => exact hP.bind (hP.skilled (Session.skill_stopEntity _).change) fun _ => hP.pure _
  | createClone source =>
    exact hP.bind (hP.text _ _) fun raw => hP.bind (hc _ rfl _) fun _ => hP.pure _
  | deleteSelf => exact hP.bind (hP.skilled (Session.skill_deleteEntity _).change) fun _ => hP.pure _
  | broadcast message =>
    refine hP.bind (hP.text _ _) fun m => ?_
    by_cases h : isBlankText m
    · rw [if_pos h]
      exact hP.complain _ _ _
    · rw [if_neg h]
      exact hP.bind (hb _ rfl m) fun _ => hP.pure _
  | attachTo parent =>
    refine hP.bind (hP.text _ _) fun p => hP.bind (hP.skill (Session.skill_attach _ p)) fun r => ?_
    cases r <;> exact hP.pure _
  | detach => exact hP.doing (Session.skill_detach _)
  | switchScene scene =>
    refine hP.bind (hP.text _ _) fun name => ?_
    by_cases h : isBlankText name
    · rw [if_pos h]
      exact hP.complain _ _ _
    · rw [if_neg h]
      exact hP.bind (hP.skilled (Session.skill_requestScene name)) fun _ => hP.pure _
  | resetTimer => exact hP.bind (hP.skilled Session.skill_resetTimer) fun _ => hP.pure _
  | setVariable key value =>
    exact hP.bind (hP.evaluate _ _) fun v => hP.trying _ _ _ (Session.skill_setVariable _ key v)
  | changeVariable key delta =>
    exact hP.bind (hP.number _ _) fun d => hP.trying _ _ _ (Session.skill_changeVariable _ key d)
  | log message =>
    exact hP.bind (hP.text _ _) fun m => hP.bind (hP.skilled (Session.skill_note _ _)) fun _ =>
      hP.pure _

/-! ## Statements -/

theorem resolve {h : Host Play} (eval : ∀ e, P (h.eval e)) (perform : ∀ a, P (h.perform a))
    (count : ∀ name i, P (h.count name i)) (report : ∀ message, P (h.report message)) (s : Stmt)
    (addLoop : ∀ loop body, s = .forever loop body → P (h.addLoop loop body)) :
    P (h.resolve s) := by
  cases s with
  | action a =>
    refine hP.bind (perform a) fun flow => ?_
    cases flow with
    | fail message => exact hP.bind (report message) fun _ => hP.pure _
    | _ => exact hP.pure _
  | forever loop body => exact hP.bind (addLoop loop body rfl) fun _ => hP.pure _
  | branch condition yes no => exact hP.bind (eval _) fun _ => hP.pure _
  | repeatTimes times body => exact hP.bind (eval _) fun _ => hP.pure _
  | repeatUntil condition body => exact hP.bind (eval _) fun _ => hP.pure _
  | waitUntil condition => exact hP.bind (eval _) fun _ => hP.pure _
  | forEach name n body =>
    refine hP.bind (eval _) fun v => ?_
    by_cases h : toNat64 (floorOf v.toNumber) = 0
    · rw [if_pos h]
      exact hP.pure _
    · rw [if_neg h]
      exact hP.bind (count _ _) fun _ => hP.pure _

theorem again {h : Host Play} (eval : ∀ e, P (h.eval e)) (count : ∀ name i, P (h.count name i))
    (kind : Loop) : P (h.again kind) := by
  cases kind with
  | times n => exact hP.pure _
  | untilTrue condition => exact hP.bind (eval _) fun _ => hP.pure _
  | each name index n =>
    by_cases h : index < n
    · rw [Host.again, if_pos h]
      exact hP.bind (count _ _) fun _ => hP.pure _
    · rw [Host.again, if_neg h]
      exact hP.pure _

end Weaving

namespace Tidying

variable {P : ∀ {α : Type}, Play α → Prop} (hP : Tidying @P) {α : Type}
include hP

/-- An action keeps what making a clone keeps. -/
theorem perform {clone : String → Play Unit} (hc : ∀ source, P (clone source)) (entity : String)
    (a : Action) : P (Play.perform clone entity a) :=
  hP.toWeaving.perform entity a (fun _ _ => hc) fun _ _ m => hP.change (Session.tidy_broadcast m)

/-! ## Slices -/

/-- A slice keeps what the host keeps. -/
theorem run {h : Host Play} (alive : P h.alive) (eval : ∀ e, P (h.eval e))
    (perform : ∀ a, P (h.perform a)) (count : ∀ name i, P (h.count name i))
    (addLoop : ∀ loop body, P (h.addLoop loop body)) (report : ∀ message, P (h.report message))
    (frames : List Frame) : P (h.run frames) := by
  -- the recursion is the machine's own: every call is on a lighter stack
  have rest : ∀ left, Frame.weights left < Frame.weights frames → P (h.run left) :=
    fun left _ => run alive eval perform count addLoop report left
  cases frames with
  | nil =>
    rw [Host.run.eq_def]
    refine hP.bind alive fun alive => ?_
    cases alive <;> exact hP.pure _
  | cons f fs =>
    cases ht : f.take? with
    | some taken =>
      obtain ⟨s, g⟩ := taken
      rw [Host.run_take ht]
      refine hP.bind alive fun alive => ?_
      cases alive with
      | false => exact hP.pure _
      | true =>
        refine hP.bind (hP.resolve eval perform count report s fun loop body _ => addLoop loop body)
          fun o => ?_
        have next := rest (s.enter o ++ g :: fs) (Frame.weights_enter_lt ht o fs)
        cases o with
        | pause p => exact hP.pure _
        | finish => exact hP.pure _
        | _ => exact next
    | none =>
      rw [Host.run_over ht]
      refine hP.bind alive fun alive => ?_
      cases alive with
      | false => exact hP.pure _
      | true =>
        cases f with
        | sequence l => exact rest fs (Frame.weights_lt_cons _ fs)
        | loop kind body l => exact hP.pure _
        | turned kind body =>
          refine hP.bind (hP.again eval count kind) fun turn => ?_
          cases turn with
          | none => exact rest fs (Frame.weights_lt_cons _ fs)
          | some next =>
            exact rest (.loop next body body :: fs) (Frame.weights_turn_lt kind next body fs)
termination_by Frame.weights frames

/-- A slice of a task keeps what making a clone keeps. -/
theorem runSlice {clone : String → Play Unit} (hc : ∀ source, P (clone source)) (t : Task) :
    P (Play.runSlice clone t) := by
  have slice : P ((host clone t.entity).run t.frames) :=
    hP.run (hP.ask _ fun _ _ => rfl) (hP.evaluate _) (hP.perform hc _)
      (fun name i => hP.skilled (Session.skill_setVariable _ name _).change)
      (fun loop body => hP.change (Session.tidy_addLoop _ loop body))
      (fun _ => hP.skilled (Session.skill_note _ _)) _
  refine hP.bind slice fun r => ?_
  cases r <;> exact hP.pure _

end Tidying

end Play

end BlockStage
