/-
  Budgets: what a larger clone budget changes.

  1. A call works off the queue of clones within a budget.  A call that uses its budget up
     (`Play.Exhausts`) tells nothing but that the budget was too small, so a call *finishes* if it
     does not use up some budget (`Session.Finishes`).

  2. What is done while the queue is being worked off never looks at the budget (`Play.Free`).
     Working off the queue counts the budget down, and that is the one place where it matters.

  3. **The crux (`extends_startClones`)** — working off the queue within `m` steps does what it does
     within `k ≤ m` steps, unless those were too few.  So every call that finishes does the same
     within all larger budgets (`steady_scriptCall`).
-/
import BlockStage.Proofs.Session.Clone
import BlockStage.Proofs.Session.Round

namespace BlockStage

namespace Play

variable {α β : Type} {p q : Play α} {f g : α → Play β} {s : Session} {n : Nat}

/-! ## Using a budget up -/

/-- Does a step use up the clone budget? -/
def Exhausts (p : Play α) (s : Session) : Prop := ∃ t, p s = .error .budgetExhausted t

theorem not_exhausts_of_returns (h : p.returns s = true) : ¬p.Exhausts s := by
  rintro ⟨t, ht⟩
  rw [returns, ht] at h
  cases h

/-- An outcome, but for the clone budget. -/
def rebudget (n : Nat) : EStateM.Result Fault Session α → EStateM.Result Fault Session α
  | .ok a t => .ok a (t.withBudget n)
  | .error e t => .error e (t.withBudget n)

/-- With a clone budget of `n`, a second step does what a first one does, unless that uses up its
    budget. -/
def Extends (p q : Play α) (n : Nat) (s : Session) : Prop :=
  p.Exhausts s ∨ q (s.withBudget n) = rebudget n (p s)

theorem Extends.bind (h : Extends p q n s)
    (hf : ∀ a t, p s = .ok a t → Extends (f a) (g a) n t) : Extends (p >>= f) (q >>= g) n s := by
  rcases h with ⟨t, ht⟩ | same
  · exact .inl ⟨t, bind_of_error ht⟩
  cases hr : p s with
  | ok a t =>
    rw [hr] at same
    rw [Extends, Exhausts, bind_of_ok hr, bind_of_ok same]
    exact hf a t hr
  | error e t =>
    rw [hr] at same
    refine .inr ?_
    rw [bind_of_error hr, bind_of_error same]
    rfl

/-! ## Steps without a budget -/

/-- A step that neither reads nor writes the clone budget. -/
def Free (p : Play α) : Prop := ∀ s n, p (s.withBudget n) = rebudget n (p s)

theorem Free.extends (hp : Free p) (n : Nat) (s : Session) : Extends p p n s := .inr (hp s n)

theorem free_changing {f : Session → α × Session} (hf : Session.Blind f) : Free (changing f) := by
  intro s n
  rw [changing_apply, hf s n]
  rfl

/-- A step that is put together from steps without a budget has none. -/
theorem trying_free : Trying @Free where
  bind {α β p f} hp hf s n := by
    have first := hp s n
    cases hr : p s with
    | ok a t =>
      rw [hr] at first
      rw [bind_of_ok first, bind_of_ok hr]
      exact hf a t n
    | error e t =>
      rw [hr] at first
      rw [bind_of_error first, bind_of_error hr]
      rfl
  attempt {α f} hf _ s n := by
    rw [attempt, attempt, hf.blind s n]
    rcases f s with ⟨_ | _, t⟩ <;> rfl

theorem thorough_free : Thorough @Free := ⟨trying_free.closed, fun _ hb _ => free_changing hb⟩

theorem free_queueClone (source : String) : Free (queueClone source) :=
  thorough_free.discarded (free_changing (Session.apart_requestClone source).blind)

theorem free_nextCloneStart : Free nextCloneStart := by
  intro s n
  cases queue : s.cloneStarts with
  | nil =>
    rw [nextCloneStart_nil queue]
    exact nextCloneStart_nil queue
  | cons id rest =>
    rw [nextCloneStart_cons queue]
    exact nextCloneStart_cons queue

/-! ## Working off the queue -/

/-- More steps do the same, unless fewer were too few. -/
theorem extends_startClones {k m : Nat} (h : k ≤ m) (n : Nat) (s : Session) :
    Extends (startClones k) (startClones m) n s := by
  induction k generalizing m s with
  | zero => exact .inl ⟨s, rfl⟩
  | succ k ih =>
    obtain ⟨m, rfl⟩ : ∃ l, m = l + 1 := ⟨m - 1, by omega⟩
    refine (free_nextCloneStart.extends n s).bind fun next t _ => ?_
    cases next with
    | none => exact (thorough_free.pure ()).extends n t
    | some id =>
      have asked := thorough_free.ask (fun s => s.behaviors id startsClone) fun _ _ => rfl
      refine (asked.extends n t).bind fun starts u _ => ?_
      have launched := thorough_free.forM starts fun b _ =>
        thorough_free.discarded (thorough_free.launchWith free_queueClone id b)
      exact (launched.extends n u).bind fun _ v _ => ih (by omega) v

/-- A step that does the same with any larger clone budget, unless it uses up its own. -/
def Steady (p : Play α) : Prop := ∀ s n, s.cloneBudget ≤ n → Extends p p n s

theorem Free.steady (hp : Free p) : Steady p := fun s n _ => hp.extends n s

/-- A steady step that returns has left the budget as it was. -/
theorem Steady.budget (hp : Steady p) {a : α} {t : Session} (h : p s = .ok a t) :
    t.cloneBudget = s.cloneBudget := by
  rcases hp s s.cloneBudget (Nat.le_refl _) with ⟨u, hu⟩ | same
  · rw [h] at hu
    cases hu
  · rw [Session.withBudget_cloneBudget, h] at same
    have unchanged : t = t.withBudget s.cloneBudget := (EStateM.Result.ok.inj same).2
    rw [unchanged]
    rfl

theorem trying_steady : Trying @Steady where
  bind hp hf s n hn :=
    (hp s n hn).bind fun a t ht => hf a t n (hp.budget ht ▸ hn)
  attempt hf he := (trying_free.attempt hf he).steady

theorem thorough_steady : Thorough @Steady :=
  ⟨trying_steady.closed, fun _ hb _ => (free_changing hb).steady⟩

theorem steady_createClone (source : String) : Steady (createClone source) := by
  have requested := free_changing (Session.apart_requestClone source).blind
  refine thorough_steady.bind requested.steady fun r => ?_
  cases r with
  | error e => exact thorough_steady.pure _
  | ok id =>
    refine thorough_steady.bind (fun s n hn => ?_) fun _ => thorough_steady.pure _
    -- here the budget is read: the two runs go on with different numbers of steps
    show Extends (if (s.running && !s.draining) = true then _ else pure ())
      (if (s.running && !s.draining) = true then _ else pure ()) n s
    split
    · have begun : Free (change fun s => { s with draining := true }) := fun _ _ => rfl
      have ended : Free (change fun s => { s with draining := false }) := fun _ _ => rfl
      exact (begun.extends n s).bind fun _ t _ =>
        (extends_startClones hn n t).bind fun _ u _ => ended.extends n u
    · exact (thorough_free.pure ()).extends n s

/-- **Calls are steady**: a call that does not use up its budget does the same with a larger one. -/
theorem steady_scriptCall (c : ScriptCall) : Steady c.run :=
  thorough_steady.scriptCall trying_steady.tick steady_createClone c

end Play

/-! ## Finishing -/

/-- Does a call come to an end, within some clone budget? -/
def Session.Finishes (s : Session) (c : ScriptCall) : Prop :=
  ∃ n, ¬c.run.Exhausts (s.withBudget n)

/-- A call that does not use up a budget does the same within every larger one. -/
theorem Session.run_of_le {s : Session} {c : ScriptCall} {n m : Nat}
    (h : ¬c.run.Exhausts (s.withBudget n)) (hm : n ≤ m) :
    c.run (s.withBudget m) = Play.rebudget m (c.run (s.withBudget n)) :=
  (Play.steady_scriptCall c (s.withBudget n) m hm).resolve_left h

theorem Session.last_of_le {s : Session} {c : ScriptCall} {n m : Nat}
    (h : ¬c.run.Exhausts (s.withBudget n)) (hm : n ≤ m) :
    c.run.last (s.withBudget m) = (c.run.last (s.withBudget n)).withBudget m := by
  rw [Play.last, Play.last, run_of_le h hm]
  cases c.run (s.withBudget n) <;> rfl

end BlockStage
