/-
  The ledger: which behaviors are noted as under way.

  1. **The invariant (`Session.Ledger`)** — while tasks run, they are noted as under way but do not
     wait.  They are *owed*: launching owes the launched behavior until it has paused or ended, and
     a round of resuming owes all tasks that it has taken from the scheduler.  Noted are those owed
     and those waiting, each once, as long as the session runs; once it is stopped, nothing is
     noted, and whoever is still running finds that out by itself.

  2. **The crux** — a script keeps the ledger whatever is owed, since it can only launch clones,
     which are given back at once, and stop everything.  So launching restores it for any list of
     keys owed (`restores_launchWith`).
-/
import BlockStage.Proofs.Session.Stable
import BlockStage.Proofs.Session.Pausing
import Mathlib.Data.List.Perm.Basic

namespace BlockStage

/-! ## The invariant -/

namespace Session

/-- The keys of the waiting tasks. -/
def waitingKeys (s : Session) : List (String × Nat) := s.scheduler.waiting.map Task.key

/-- The behaviors that are noted as under way are those owed and those waiting, and an idle session
    has nothing to do; `inside` tells whether the queue of clones is being worked off. -/
structure Sound (inside : Bool) (owed : List (String × Nat)) (s : Session) : Prop where
  drains : s.draining = inside
  busy : s.running = true →
    s.scheduler.active.Perm (owed ++ s.waitingKeys) ∧ s.scheduler.active.Nodup
  idle : s.running = false → s.scheduler = .idle ∧ s.loopsActive = false ∧ s.cloneStarts = []

/-- The invariant between the steps of a round: only while the queue of clones is being worked off
    do any wait in it. -/
structure Ledger (inside : Bool) (owed : List (String × Nat)) (s : Session) : Prop
    extends Sound inside owed s where
  none : inside = false → s.cloneStarts = []

variable {inside : Bool} {owed : List (String × Nat)} {s t : Session}

theorem Sound.deed (h : Deed s t) (hs : s.Sound inside owed) : t.Sound inside owed := by
  cases h with
  | aside h =>
    rw [h.rest]
    exact ⟨hs.drains, hs.busy, hs.idle⟩
  | stage h => exact ⟨hs.drains, hs.busy, hs.idle⟩
  | write id key v => exact ⟨hs.drains, hs.busy, hs.idle⟩
  | catalog d known => exact ⟨hs.drains, hs.busy, hs.idle⟩
  | delete id =>
    rw [deleteEntity]
    split <;> exact ⟨hs.drains, hs.busy, hs.idle⟩
  | stop =>
    rw [stopAll]
    split
    · exact hs
    · exact ⟨hs.drains, fun h => (by cases h), fun _ => ⟨rfl, rfl, rfl⟩⟩

theorem Ledger.deed (h : Deed s t) (hs : s.Ledger inside owed) : t.Ledger inside owed :=
  ⟨hs.toSound.deed h, fun outside => h.cloneStarts (hs.none outside)⟩

/-- A request for a clone owes nothing new. -/
theorem Sound.clone {r : Except SessionError String} (h : CloneStep s r t)
    (hs : s.Sound inside owed) : t.Sound inside owed := by
  cases h with
  | refused serial h =>
    rw [h.rest]
    exact ⟨hs.drains, hs.busy, hs.idle⟩
  | made room known spawned locals rest =>
    rw [rest.rest]
    refine ⟨hs.drains, hs.busy, fun h => ?_⟩
    obtain ⟨scheduler, loops, none⟩ := hs.idle h
    have h : s.running = false := h
    refine ⟨scheduler, loops, ?_⟩
    show (if s.running then s.cloneStarts ++ _ else s.cloneStarts) = []
    rw [h]
    exact none

/-- Only the order of what is owed may change. -/
theorem Ledger.perm {other : List (String × Nat)} (h : owed.Perm other)
    (hs : s.Ledger inside owed) : s.Ledger inside other where
  drains := hs.drains
  busy hr := ⟨(hs.busy hr).1.trans (h.append_right _), (hs.busy hr).2⟩
  idle := hs.idle
  none := hs.none

/-- An idle session owes whatever one likes. -/
theorem Ledger.of_idle (hr : s.running = false) (hs : s.Ledger inside owed)
    (other : List (String × Nat)) : s.Ledger inside other where
  drains := hs.drains
  busy h := by
    rw [hr] at h
    cases h
  idle := hs.idle
  none := hs.none

/-- A behavior that is launched is owed. -/
theorem Ledger.activate {entity : String} {b : Nat} (hr : s.running = true)
    (new : s.scheduler.isActive entity b = false) (hs : s.Ledger inside owed) :
    ({ s with scheduler := s.scheduler.activate entity b } : Session).Ledger inside
      ((entity, b) :: owed) := by
  obtain ⟨same, once⟩ := hs.busy hr
  have absent : (entity, b) ∉ s.scheduler.active := by
    intro h
    rw [Scheduler.isActive, List.contains_iff_mem.mpr h] at new
    cases new
  rw [Scheduler.activate, new]
  refine ⟨⟨hs.drains, fun _ => ⟨?_, ?_⟩, fun h => ?_⟩, hs.none⟩
  · exact (List.perm_append_singleton _ _).trans (same.cons _)
  · exact (List.perm_append_singleton _ _).nodup_iff.mpr (List.nodup_cons.mpr ⟨absent, once⟩)
  · have h : s.running = false := h
    rw [hr] at h
    cases h

/-- A behavior that is over is not owed any more. -/
theorem Ledger.deactivate {entity : String} {b : Nat} (hs : s.Ledger inside ((entity, b) :: owed)) :
    ({ s with scheduler := s.scheduler.deactivate entity b } : Session).Ledger inside owed := by
  refine ⟨⟨hs.drains, fun hr => ?_, fun hr => ?_⟩, hs.none⟩
  · obtain ⟨same, once⟩ := hs.busy hr
    have absent : (entity, b) ∉ owed ++ s.waitingKeys :=
      (List.nodup_cons.mp (same.nodup_iff.mp once)).1
    refine ⟨(same.filter _).trans ?_, once.filter _⟩
    show (((entity, b) :: (owed ++ s.waitingKeys)).filter _).Perm _
    rw [List.filter_cons_of_neg (by simp), List.filter_eq_self.mpr]
    · rfl
    · intro k hk
      have other : k ≠ (entity, b) := fun h => absent (h ▸ hk)
      simpa using other
  · obtain ⟨idle, rest⟩ := hs.idle hr
    refine ⟨?_, rest⟩
    show s.scheduler.deactivate entity b = .idle
    rw [idle]
    rfl

/-- Tasks that are owed are given back when they wait. -/
theorem Ledger.park (keys : List (String × Nat)) {waiting : List Task} (hr : s.running = true)
    (back : (waiting.map Task.key).Perm (keys ++ s.waitingKeys))
    (hs : s.Ledger inside (keys ++ owed)) :
    ({ s with scheduler := { s.scheduler with waiting := waiting } } : Session).Ledger inside
      owed := by
  obtain ⟨same, once⟩ := hs.busy hr
  refine ⟨⟨hs.drains, fun _ => ⟨?_, once⟩, fun h => ?_⟩, hs.none⟩
  · refine same.trans ?_
    have swapped : (keys ++ owed ++ s.waitingKeys).Perm (owed ++ (keys ++ s.waitingKeys)) := by
      rw [← List.append_assoc]
      exact List.perm_append_comm.append_right _
    exact swapped.trans (back.symm.append_left owed)
  · have h : s.running = false := h
    rw [hr] at h
    cases h

/-- The start phase neither owes anything nor makes anything wait. -/
theorem Ledger.phase {q : Scheduler} (hr : s.running = true) (active : q.active = s.scheduler.active)
    (waiting : q.waiting = s.scheduler.waiting) (hs : s.Ledger inside owed) :
    ({ s with scheduler := q } : Session).Ledger inside owed := by
  obtain ⟨same, once⟩ := hs.busy hr
  refine ⟨⟨hs.drains, fun _ => ?_, fun h => ?_⟩, hs.none⟩
  · show q.active.Perm (owed ++ q.waiting.map Task.key) ∧ q.active.Nodup
    rw [active, waiting]
    exact ⟨same, once⟩
  · have h : s.running = false := h
    rw [hr] at h
    cases h

/-! ## Launching -/

/-- After a slice the ledger is as before, and a task that has paused may wait. -/
theorem after_runSlice {clone : String → Play Unit}
    (hc : ∀ source, Play.Restores (Ledger inside owed) (clone source)) (t : Task)
    (hs : s.Ledger inside owed) :
    Play.After (Play.runSlice clone t) s fun left u =>
      u.Ledger inside owed ∧ ∀ t', left = some t' → t'.key = t.key ∧ u.running = true :=
  ((closed_restores Ledger.deed).runSlice hc t s hs).and (running_of_paused clone t s)

/-- A behavior that is launched is owed until it waits or is over. -/
theorem restores_launchWith {clone : String → Play Unit}
    (hc : ∀ owed source, Play.Restores (Ledger inside owed) (clone source))
    (owed : List (String × Nat)) (entity : String) (b : Behavior) :
    Play.Restores (Ledger inside owed) (Play.launchWith clone entity b) := by
  intro s hs
  refine Play.After.get_bind ?_
  by_cases refused : (!s.running || s.scheduler.isActive entity b.id) = true
  · rw [if_pos refused]
    exact hs
  · rw [if_neg refused]
    obtain ⟨hr, new⟩ : s.running = true ∧ s.scheduler.isActive entity b.id = false := by
      simpa using refused
    -- while its slice runs the behavior is owed; whatever clones it makes owe on top of it
    refine Play.After.bind (Q := fun _ u => u.Ledger inside ((entity, b.id) :: owed))
      (hs.activate hr new) fun _ u hu => ?_
    refine (after_runSlice (hc _) _ hu).bind fun left v hv => ?_
    obtain ⟨hv, paused⟩ := hv
    cases left with
    | none => exact hv.deactivate
    | some t =>
      obtain ⟨key, hr⟩ := paused t rfl
      refine Ledger.park [(entity, b.id)] hr ?_ hv
      rw [List.map_append, List.map_singleton, key]
      exact List.perm_append_comm

/-! ## Clones -/

theorem restores_queueClone (owed : List (String × Nat)) (source : String) :
    Play.Restores (Ledger true owed) (Play.queueClone source) :=
  fun s hs => ⟨hs.toSound.clone (s.requestClone_step source), fun h => (by cases h)⟩

/-- When the queue has been worked off it is empty. -/
theorem after_startClones (budget : Nat) (owed : List (String × Nat)) (s : Session)
    (hs : s.Ledger true owed) :
    Play.After (Play.startClones budget) s fun _ t => t.Ledger true owed ∧ t.cloneStarts = [] := by
  have hP := closed_restores (I := Ledger true owed) Ledger.deed
  -- only a queue that is found empty ends the work, so an empty queue is what it leaves
  induction budget generalizing s with
  | zero => trivial
  | succ budget ih =>
    have taken : Play.After Play.nextCloneStart s fun next t =>
        t.Ledger true owed ∧ (next = none → t.cloneStarts = []) := by
      rw [Play.After]
      cases queue : s.cloneStarts with
      | nil =>
        rw [Play.nextCloneStart_nil queue]
        exact ⟨hs, fun _ => queue⟩
      | cons id rest =>
        rw [Play.nextCloneStart_cons queue]
        refine ⟨⟨⟨hs.drains, hs.busy, fun hr => ?_⟩, fun h => (by cases h)⟩, fun h => (by cases h)⟩
        have none := (hs.idle hr).2.2
        rw [queue] at none
        cases none
    refine taken.bind fun next t ht => ?_
    obtain ⟨ht, empty⟩ := ht
    cases next with
    | none => exact ⟨ht, empty rfl⟩
    | some id =>
      refine Play.After.bind (Q := fun _ u => u.Ledger true owed) ht fun starts u hu => ?_
      have launched := hP.forM starts fun b _ =>
        hP.discarded (restores_launchWith restores_queueClone owed id b)
      exact (launched u hu).bind fun _ v hv => ih v hv

/-- Making a clone leaves no clone waiting for its start. -/
theorem restores_createClone (owed : List (String × Nat)) (source : String) :
    Play.Restores (Ledger false owed) (Play.createClone source) := by
  intro s hs
  refine Play.After.bind (Q := CloneStep s) (s.requestClone_step source) fun r t step => ?_
  have sound := hs.toSound.clone step
  cases r with
  | error e =>
    cases step with
    | refused serial h =>
      refine ⟨sound, fun _ => ?_⟩
      rw [h.rest]
      exact hs.none rfl
  | ok id =>
    refine Play.After.bind (p := Play.startQueuedClones) (Q := fun _ u => u.Ledger false owed) ?_
      fun _ u hu => hu
    refine Play.After.get_bind ?_
    cases hr : t.running with
    | false =>
      rw [if_neg (by simp)]
      exact ⟨sound, fun _ => (sound.idle hr).2.2⟩
    | true =>
      rw [if_pos (by rw [sound.drains]; rfl)]
      refine Play.After.bind (Q := fun _ u => u.Ledger true owed)
        ⟨⟨rfl, sound.busy, sound.idle⟩, fun h => (by cases h)⟩ fun _ u hu => ?_
      refine (after_startClones _ owed u hu).bind fun _ v hv => ?_
      exact ⟨⟨rfl, hv.1.busy, hv.1.idle⟩, fun _ => hv.2⟩

theorem restores_makeClone (owed : List (String × Nat)) (source : String) :
    Play.Restores (Ledger false owed) (Play.makeClone source) :=
  (closed_restores Ledger.deed).discarded (restores_createClone owed source)

end Session

end BlockStage
