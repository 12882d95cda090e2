/-
  The load: how many clones can still be started.

  1. **The measure (`Session.load`)** — the clones that wait for their start, and those for which
     there is room under the limit.  Making a clone takes room and adds to the queue, so it leaves
     the load as it is; starting one takes it off the queue.

  2. **What it is charged to** — only a deletion raises the load, by giving back the room of a clone.
     So what a step adds to the load is at most the number of its deletions (`Session.Charged`).

  3. **The crux (`ends_startClones`)** — working off the queue lowers the load with each clone that
     is started.  So a budget that is used up has been used on the load that there was and on
     deletions, and a call that uses up its budget has deleted that many entities, save as many as
     the limit allows clones (`frugal_scriptCall`).
-/
import BlockStage.Proofs.Session.Budget
import BlockStage.Proofs.Session.Registry
import BlockStage.Proofs.Stage.Clones

namespace BlockStage

namespace Session

/-! ## The load -/

/-- The clones that wait for their start and those for which there is room. -/
def load (s : Session) : Nat := s.cloneStarts.length + (s.config.cloneLimit - s.stage.clones)

/-- What a step adds to the load it makes good by deletions. -/
structure Charged (s t : Session) : Prop where
  stage : t.stage.Orderly
  balance : t.load + s.deletions ≤ s.load + t.deletions
  deletions : s.deletions ≤ t.deletions
  config : t.config = s.config
  budget : t.cloneBudget = s.cloneBudget

namespace Charged

variable {s t u : Session}

theorem refl (hs : s.stage.Orderly) : s.Charged s := ⟨hs, (Nat.le_refl _), (Nat.le_refl _), rfl, rfl⟩

theorem trans (h : s.Charged t) (k : t.Charged u) : s.Charged u where
  stage := k.stage
  balance := by
    have first := h.balance
    have second := k.balance
    omega
  deletions := Nat.le_trans h.deletions k.deletions
  config := k.config.trans h.config
  budget := k.budget.trans h.budget

/-- Nobody has come or gone, and no clone waits that has not waited before. -/
theorem sameCast (hs : s.stage.Orderly) (cast : s.stage.SameCast t.stage)
    (starts : t.cloneStarts.length ≤ s.cloneStarts.length) (deletions : t.deletions = s.deletions)
    (config : t.config = s.config) (budget : t.cloneBudget = s.cloneBudget) : s.Charged t where
  stage := hs.sameCast cast
  balance := by
    rw [load, load, cast.clones, config, deletions]
    omega
  deletions := Nat.le_of_eq deletions.symm
  config := config
  budget := budget

theorem aside (h : s.Aside t) (hs : s.stage.Orderly) : s.Charged t := by
  have deletions := h.deletions
  rw [h.rest] at deletions ⊢
  exact sameCast hs (.refl _) (Nat.le_refl _) deletions rfl rfl

/-- A deletion raises the load by one at most, and it is told of. -/
theorem deleteEntity (id : String) (hs : s.stage.Orderly) : s.Charged (s.deleteEntity id).2 := by
  rcases deleteEntity_cases hs id with ⟨-, same⟩ | ⟨h, stage, gone, left⟩
  · rw [same]
    exact refl hs
  · have fewer := gone.clones hs
    rw [left]
    have told : (s.events ++ [Event.deleted id]).countP Event.isDeletion = s.deletions + 1 := by
      rw [List.countP_append]
      rfl
    refine ⟨gone.orderly hs, ?_, ?_, rfl, rfl⟩
    · show s.cloneStarts.length + (s.config.cloneLimit - stage.clones) + s.deletions
        ≤ s.load + (s.events ++ [Event.deleted id]).countP Event.isDeletion
      rw [load, told]
      omega
    · show s.deletions ≤ (s.events ++ [Event.deleted id]).countP Event.isDeletion
      omega

theorem deed (h : Deed s t) (hs : s.stage.Orderly) : s.Charged t := by
  cases h with
  | aside h => exact aside h hs
  | stage h => exact sameCast hs h (Nat.le_refl _) rfl rfl rfl
  | write id key v => exact sameCast hs (.refl _) (Nat.le_refl _) rfl rfl rfl
  | catalog d known => exact sameCast hs (.refl _) (Nat.le_refl _) rfl rfl rfl
  | delete id => exact deleteEntity id hs
  | stop =>
    rw [stopAll]
    split
    · exact refl hs
    · exact sameCast hs (s.stage.sameCast_setAllStopped true) (Nat.zero_le _)
        (deletions_emit _ .stopped rfl) rfl rfl

theorem deeds (h : Deeds s t) (hs : s.stage.Orderly) : s.Charged t :=
  h.keep (fun _ _ d ht => ht.trans (deed d ht.stage)) (refl hs)

theorem upkeep (h : s.Upkeep t) (hs : s.stage.Orderly) : s.Charged t := by
  have deletions := h.deletions
  have cast := h.stage
  rw [h.rest] at deletions ⊢
  exact sameCast hs cast (Nat.le_refl _) deletions rfl rfl

/-- A clone that is made takes the room of one, and may wait for its start. -/
theorem clone {r : Except SessionError String} (h : CloneStep s r t) (hs : s.stage.Orderly) :
    s.Charged t := by
  cases h with
  | refused serial h =>
    have deletions : t.deletions = s.deletions := h.deletions
    rw [h.rest] at deletions ⊢
    exact sameCast hs (.refl _) (Nat.le_refl _) deletions rfl rfl
  | @made _ id prototype template h stage store room known spawned locals rest =>
    have new := Stage.spawned_of_spawn hs.fresh spawned
    have more : stage.clones = s.stage.clones + 1 :=
      new.clones hs (by rw [cloneSpawn_prototype]; rfl)
    have room : s.stage.clones < s.config.cloneLimit := room
    have deletions : t.deletions = s.deletions :=
      rest.deletions.trans (s.deletions_emit (.cloneSpawned id prototype) rfl)
    rw [rest.rest] at deletions ⊢
    refine ⟨new.orderly hs, ?_, Nat.le_of_eq deletions.symm, rfl, rfl⟩
    rw [deletions]
    show (if s.running then s.cloneStarts ++ [id] else s.cloneStarts).length
      + (s.config.cloneLimit - stage.clones) + s.deletions ≤ _
    rw [load, more]
    split
    · rw [List.length_append, List.length_singleton]
      omega
    · omega

end Charged

end Session

namespace Play

variable {α β : Type} {p : Play α} {s : Session}

/-! ## How steps end -/

/-- What holds when a step returns, and what holds when it has used up the clone budget. -/
def Ends (p : Play α) (s : Session) (Q : α → Session → Prop) (E : Session → Prop) : Prop :=
  match p s with
  | .ok a t => Q a t
  | .error .budgetExhausted t => E t
  | .error _ _ => True

namespace Ends

variable {Q R : α → Session → Prop} {E F : Session → Prop}

theorem of_ok (h : Ends p s Q E) {a : α} {t : Session} (hr : p s = .ok a t) : Q a t := by
  rw [Ends, hr] at h
  exact h

theorem of_exhausts (h : Ends p s Q E) {t : Session} (hr : p s = .error .budgetExhausted t) :
    E t := by
  rw [Ends, hr] at h
  exact h

theorem of_cases (ok : ∀ a t, p s = .ok a t → Q a t)
    (exhausted : ∀ t, p s = .error .budgetExhausted t → E t) : Ends p s Q E := by
  rw [Ends]
  split
  · exact ok _ _ ‹_›
  · exact exhausted _ ‹_›
  · trivial

theorem mono (h : Ends p s Q E) (hQ : ∀ a t, Q a t → R a t) (hE : ∀ t, E t → F t) :
    Ends p s R F :=
  of_cases (fun a t hr => hQ a t (h.of_ok hr)) fun t hr => hE t (h.of_exhausts hr)

theorem bind {f : α → Play β} {S : β → Session → Prop} (h : Ends p s Q E)
    (hf : ∀ a t, Q a t → Ends (f a) t S E) : Ends (p >>= f) s S E := by
  rw [Ends]
  cases hr : p s with
  | ok a t =>
    rw [bind_of_ok hr]
    exact hf a t (h.of_ok hr)
  | error e t =>
    rw [Ends, hr] at h
    rw [bind_of_error hr]
    cases e <;> exact h

theorem get_bind {f : Session → Play β} {S : β → Session → Prop} (h : Ends (f s) s S E) :
    Ends (get >>= f) s S E := h

theorem ask_bind {g : Session → α} {f : α → Play β} {S : β → Session → Prop}
    (h : Ends (f (g s)) s S E) : Ends (ask g >>= f) s S E := h

theorem change_bind {g : Session → Session} {f : Unit → Play β} {S : β → Session → Prop}
    (h : Ends (f ()) (g s) S E) : Ends (change g >>= f) s S E := h

end Ends

/-! ## While the queue is being worked off -/

/-- A step that is charged and does not use up the budget. -/
def Pays (p : Play α) : Prop :=
  ∀ s, s.stage.Orderly → Ends p s (fun _ t => s.Charged t) fun _ => False

theorem trying_pays : Trying @Pays where
  bind hp hf s hs := (hp s hs).bind fun a t ht =>
    (hf a t ht.stage).mono (fun _ _ hu => ht.trans hu) fun _ no => no
  attempt {α f} hf never s hs := by
    have charged := Session.Charged.deeds (hf.deeds s) hs
    have safe := never s
    rw [Ends, Play.attempt]
    rcases hr : f s with ⟨e | a, t⟩
    · rw [hr] at safe
      cases e with
      | budgetExhausted => exact safe rfl
      | _ => trivial
    · rw [hr] at charged
      exact charged

theorem thorough_pays : Thorough @Pays :=
  ⟨trying_pays.closed, fun hf _ _ s hs => Session.Charged.upkeep (hf s) hs⟩

theorem pays_queueClone (source : String) : Pays (queueClone source) :=
  thorough_pays.discarded fun s hs => Session.Charged.clone (s.requestClone_step source) hs

/-- **Working off the queue**: the budget is used on the load that there was and on deletions. -/
theorem ends_startClones (n : Nat) (s : Session) (hs : s.stage.Orderly) :
    Ends (startClones n) s (fun _ t => s.Charged t ∧ t.cloneStarts = [])
      fun t => n + s.deletions ≤ s.load + t.deletions := by
  induction n generalizing s with
  | zero =>
    show 0 + s.deletions ≤ s.load + s.deletions
    omega
  | succ n ih =>
    cases queue : s.cloneStarts with
    | nil =>
      rw [Ends, startClones, bind_of_ok (nextCloneStart_nil queue)]
      exact ⟨.refl hs, queue⟩
    | cons id rest =>
      -- the clone that is taken from the queue pays for this turn
      let t : Session := { s with cloneStarts := rest }
      have lower : t.load + 1 = s.load := by
        show rest.length + _ + 1 = s.cloneStarts.length + _
        rw [queue, List.length_cons, Nat.add_right_comm]
      have taken : s.Charged t := by
        refine ⟨hs, ?_, Nat.le_refl _, rfl, rfl⟩
        show t.load + s.deletions ≤ s.load + s.deletions
        omega
      have launched := fun starts => thorough_pays.forM starts fun b _ =>
        thorough_pays.discarded (thorough_pays.launchWith pays_queueClone id b)
      rw [Ends, startClones, bind_of_ok (nextCloneStart_cons queue)]
      refine Ends.ask_bind ?_
      refine ((launched _ t hs).mono (fun _ _ h => h) fun _ no => no.elim).bind fun _ u hu => ?_
      refine (ih u hu.stage).mono (fun _ v hv => ⟨taken.trans (hu.trans hv.1), hv.2⟩) fun v hv => ?_
      have balance := hu.balance
      have same : t.deletions = s.deletions := rfl
      omega

end Play

/-! ## Outside of the queue -/

/-- Nobody waits for a start, the queue is not being worked off, and the stage is in order. -/
structure Session.Calm (s : Session) : Prop where
  draining : s.draining = false
  starts : s.cloneStarts = []
  stage : s.stage.Orderly

namespace Session.Calm

variable {s t : Session}

theorem deed (h : Deed s t) (hs : s.Calm) : t.Calm :=
  ⟨h.queue.1.trans hs.draining, h.cloneStarts hs.starts, (Charged.deed h hs.stage).stage⟩

theorem upkeep (h : s.Upkeep t) (hs : s.Calm) : t.Calm := by
  refine ⟨?_, ?_, (Charged.upkeep h hs.stage).stage⟩
  · rw [h.rest]
    exact hs.draining
  · rw [h.rest]
    exact hs.starts

end Session.Calm

namespace Play

variable {α : Type}

/-- A step that is charged, leaves no clone waiting, and uses up the budget only by deletions. -/
def Frugal (p : Play α) : Prop :=
  ∀ s, s.Calm → Ends p s (fun _ t => s.Charged t ∧ t.Calm)
    fun t => s.cloneBudget + s.deletions ≤ s.config.cloneLimit + t.deletions

theorem trying_frugal : Trying @Frugal where
  bind hp hf s hs := by
    refine (hp s hs).bind fun a t ht => ?_
    obtain ⟨ht, calm⟩ := ht
    refine (hf a t calm).mono (fun _ _ hu => ⟨ht.trans hu.1, hu.2⟩) fun u hu => ?_
    have grown := ht.deletions
    rw [ht.config, ht.budget] at hu
    omega
  attempt {α f} hf never s hs := by
    have charged := Session.Charged.deeds (hf.deeds s) hs.stage
    have calm := (hf.deeds s).keep (fun _ _ => Session.Calm.deed) hs
    have safe := never s
    rw [Ends, Play.attempt]
    rcases hr : f s with ⟨e | a, t⟩
    · rw [hr] at safe
      cases e with
      | budgetExhausted => exact (safe rfl).elim
      | _ => trivial
    · rw [hr] at charged calm
      exact ⟨charged, calm⟩

theorem thorough_frugal : Thorough @Frugal :=
  ⟨trying_frugal.closed, fun hf _ _ s hs => ⟨.upkeep (hf s) hs.stage, .upkeep (hf s) hs⟩⟩

/-- Making a clone uses the budget up only by deletions: at first there is no more load than the
    limit allows clones. -/
theorem frugal_createClone (source : String) : Frugal (createClone source) := by
  intro s hs
  refine Ends.bind (Q := Session.CloneStep s) (s.requestClone_step source) fun r t step => ?_
  have charged := Session.Charged.clone step hs.stage
  cases r with
  | error e =>
    refine ⟨charged, ?_⟩
    cases step with
    | refused serial h =>
      rw [h.rest]
      exact ⟨hs.draining, hs.starts, hs.stage⟩
  | ok id =>
    have queued : t.draining = false ∧ (t.running = false → t.cloneStarts = []) := by
      cases step with
      | made room known spawned locals rest =>
        rw [rest.rest]
        refine ⟨hs.draining, fun idle => ?_⟩
        have idle : s.running = false := idle
        show (if s.running then s.cloneStarts ++ [id] else s.cloneStarts) = []
        rw [idle]
        exact hs.starts
    -- nobody waits outside of the queue, so the load is the room under the limit
    have room : s.load ≤ s.config.cloneLimit := by
      rw [Session.load, hs.starts, List.length_nil]
      omega
    refine Ends.bind (p := startQueuedClones) (Q := fun _ u => s.Charged u ∧ u.Calm) ?_
      fun _ u hu => hu
    refine Ends.get_bind ?_
    rw [queued.1]
    cases hr : t.running with
    | false => exact ⟨charged, queued.1, queued.2 hr, charged.stage⟩
    | true =>
      let u : Session := { t with draining := true }
      refine Ends.change_bind ?_
      have worked := ends_startClones t.cloneBudget u charged.stage
      refine Ends.bind (worked.mono (fun _ _ h => h) fun v hv => ?_) fun _ v hv => ?_
      -- the budget is used on the load after the request, which was there before it
      · have balance := charged.balance
        have budget := charged.budget
        have used : t.cloneBudget + t.deletions ≤ t.load + v.deletions := hv
        omega
      · obtain ⟨more, empty⟩ := hv
        have whole : s.Charged v := charged.trans ⟨more.stage, more.balance, more.deletions,
          more.config, more.budget⟩
        exact ⟨⟨whole.stage, whole.balance, whole.deletions, whole.config, whole.budget⟩, rfl, empty,
          whole.stage⟩

/-- **Calls are frugal**: a call that uses up its budget has deleted that many entities, save as
    many as the limit allows clones. -/
theorem frugal_scriptCall (c : ScriptCall) : Frugal c.run :=
  thorough_frugal.scriptCall trying_frugal.tick frugal_createClone c

end Play

end BlockStage
