/-
  Settled sessions: what holds of the scheduler between calls.

  1. **Specification (`Session.Settled`)** — the behaviors that are noted as under way are exactly
     those of the waiting tasks, each once, so none of them can be triggered again before it is
     over; no clone waits for its start; and an idle session has nothing to do.

  2. **Rounds** — resuming owes all waiting tasks at first and pays them off one by one, by the end
     those that still wait (`after_resumeEach`).  The start phase runs one script at a time, which
     is not noted and owes nothing (`restores_runStarts`).

  3. **Runs** — every call restores the ledger with nothing owed, so every session that a host can
     reach is settled (`settled_of_reachable`).
-/
import BlockStage.Proofs.Session.Schedule

namespace BlockStage

namespace Session

variable {owed : List (String × Nat)} {s : Session}

/-! ## Resuming -/

theorem after_resume (t : Task) (hs : s.Ledger false (t.key :: owed)) :
    Play.After (Play.resume t) s fun left u =>
      u.Ledger false (left.toList.map Task.key ++ owed) := by
  refine Play.After.bind (Q := fun _ u => u.Ledger false (t.key :: owed)) hs fun may u hu => ?_
  cases may with
  | false => exact hu.deactivate
  | true =>
    refine ((closed_restores Ledger.deed).isReady t u hu).bind fun ready v hv => ?_
    cases ready with
    | false => exact hv
    | true =>
      refine (after_runSlice (restores_makeClone _) t hv).bind fun left w hw => ?_
      obtain ⟨hw, paused⟩ := hw
      cases left with
      | none => exact hw.deactivate
      | some t' =>
        show w.Ledger false (t'.key :: owed)
        rw [(paused t' rfl).1]
        exact hw

/-- Of the tasks that were owed, those that still wait are owed in the end. -/
theorem after_resumeEach (l : List Task) (hs : s.Ledger false (l.map Task.key ++ owed)) :
    Play.After (Play.resumeEach l) s fun left u =>
      u.Ledger false (left.map Task.key ++ owed) := by
  induction l generalizing s owed with
  | nil => exact hs
  | cons t rest ih =>
    have owes : s.Ledger false (t.key :: (rest.map Task.key ++ owed)) := hs
    refine (after_resume t owes).bind fun first u hu => ?_
    -- what is left of the first task goes to the end, so that the rest is owed first again
    have rotated : u.Ledger false (rest.map Task.key ++ (first.toList.map Task.key ++ owed)) := by
      refine hu.perm ?_
      rw [← List.append_assoc, ← List.append_assoc]
      exact List.perm_append_comm.append_right _
    refine (ih rotated).bind fun others v hv => ?_
    refine hv.perm ?_
    rw [List.map_append, ← List.append_assoc]
    exact List.perm_append_comm.append_right _

/-- The waiting tasks are owed once they are taken. -/
theorem after_takeWaiting (hs : s.Ledger false []) :
    Play.After Play.takeWaiting s fun l u => u.Ledger false (l.map Task.key ++ []) := by
  refine ⟨⟨hs.drains, fun hr => ?_, fun hr => ?_⟩, hs.none⟩
  · obtain ⟨same, once⟩ := hs.busy hr
    refine ⟨?_, once⟩
    show s.scheduler.active.Perm (s.waitingKeys ++ [] ++ [])
    rw [List.append_nil, List.append_nil]
    exact same
  · obtain ⟨idle, rest⟩ := hs.idle hr
    refine ⟨?_, rest⟩
    show { s.scheduler with waiting := [] } = Scheduler.idle
    rw [idle]
    rfl

theorem restores_resumeAll : Play.Restores (Ledger false []) Play.resumeAll := by
  intro s hs
  refine (after_takeWaiting hs).bind fun waiting t ht => ?_
  refine (after_resumeEach waiting ht).bind fun still u hu => ?_
  refine Play.After.ask_bind ?_
  cases hr : u.running with
  | false => exact hu.of_idle hr []
  | true =>
    refine Ledger.park (still.map Task.key) hr ?_ hu
    rw [List.map_append]
    rfl

/-! ## The start phase -/

/-- Looking at what a task waits for does not stop the session. -/
theorem running_of_isReady (t : Task) (s : Session) :
    Play.After (Play.isReady t) s fun _ u => u.running = s.running := by
  rw [Play.isReady]
  split
  · rfl
  · rfl
  · rfl
  · rfl
  · refine Play.After.bind (Q := fun _ u => u.running = s.running) rfl fun now u hu => ?_
    show (u.place t.entity _).2.running = s.running
    rw [place, onStage]
    split <;> exact hu
  · rfl

/-- An idle session may be told so. -/
theorem Ledger.idled (hr : s.running = false) (hs : s.Ledger false owed) :
    ({ s with scheduler := .idle } : Session).Ledger false owed := by
  have same := (hs.idle hr).1
  rw [← same]
  exact hs

theorem Ledger.finishStart (hr : s.running = true) (hs : s.Ledger false owed) :
    (Play.finishStart s).Ledger false owed := by
  rw [Play.finishStart, Play.foldl_renewTemplate]
  refine ⟨⟨hs.drains, hs.busy, fun h => ?_⟩, hs.none⟩
  have h : s.running = false := h
  rw [hr] at h
  cases h

theorem restores_runStarts (l : List (String × Behavior)) :
    Play.Restores (Ledger false owed) (Play.runStarts l) := by
  induction l with
  | nil =>
    intro s hs
    refine Play.After.ask_bind ?_
    cases hr : s.running with
    | false => exact hs.idled hr
    | true => exact Ledger.finishStart hr (hs.phase hr rfl rfl)
  | cons e rest ih =>
    intro s hs
    refine Play.After.ask_bind ?_
    cases hr : s.running with
    | false => exact hs.idled hr
    | true =>
      refine Play.After.bind (Q := fun _ u => u.Ledger false owed) (hs.phase hr rfl rfl)
        fun _ u hu => ?_
      refine (after_runSlice (restores_makeClone _) _ hu).bind fun left v hv => ?_
      obtain ⟨hv, paused⟩ := hv
      cases left with
      | none => exact ih v hv
      | some t => exact hv.phase (paused t rfl).2 rfl rfl

theorem restores_continueStart (t : Task) (rest : List (String × Behavior)) :
    Play.Restores (Ledger false owed) (Play.continueStart t rest) := by
  intro s hs
  refine (after_runSlice (restores_makeClone _) t hs).bind fun left u hu => ?_
  obtain ⟨hu, paused⟩ := hu
  cases left with
  | none => exact restores_runStarts _ u hu
  | some t => exact hu.phase (paused t rfl).2 rfl rfl

theorem restores_advanceStart : Play.Restores (Ledger false owed) Play.advanceStart := by
  intro s hs
  refine Play.After.get_bind ?_
  cases starting : s.scheduler.starting with
  | false => exact hs
  | true =>
    cases hr : s.running with
    | false => exact hs.idled hr
    | true =>
      cases s.scheduler.startTask with
      | none => exact restores_runStarts _ s hs
      | some t =>
        refine Play.After.bind (Q := fun _ u => u.Ledger false owed ∧ u.running = true)
          ⟨hs.phase hr rfl rfl, hr⟩ fun _ u hu => ?_
        -- a start script is neither noted nor owed: it waits in a place of its own, or goes on
        have go : ∀ (waits : Bool) (v : Session), v.Ledger false owed ∧ v.running = true →
            Play.After (if waits then Play.schedule fun q => { q with startTask := some t }
              else Play.continueStart t s.scheduler.startQueue) v
            fun _ w => w.Ledger false owed := by
          intro waits v hv
          cases waits with
          | true => exact hv.1.phase hv.2 rfl rfl
          | false => exact restores_continueStart t _ v hv.1
        cases s.mayRun t.entity with
        | false => exact go false u hu
        | true =>
          have kept := (closed_restores Ledger.deed).isReady t u hu.1
          have looked := kept.and (running_of_isReady t u)
          refine Play.After.bind (p := do return !(← Play.isReady t))
            (Q := fun _ v => v.Ledger false owed ∧ v.running = true) ?_ go
          exact looked.bind fun _ v hv => ⟨hv.1, hv.2.trans hu.2⟩

/-- Starting begins with nothing under way. -/
theorem restores_start : Play.Restores (Ledger false []) Play.start := by
  intro s hs
  refine Play.After.ask_bind ?_
  cases hr : s.running with
  | true => exact hs.deed (.aside (s.aside_note _ _))
  | false =>
    obtain ⟨idle, _, none⟩ := hs.idle hr
    refine Play.After.bind (Q := fun _ u => u.Ledger false [] ∧ u.running = true) ?_
      fun _ t ht => ?_
    · refine ⟨⟨⟨hs.drains, fun _ => ?_, fun h => (by cases h)⟩, hs.none⟩, rfl⟩
      show s.scheduler.active.Perm (s.scheduler.waiting.map Task.key) ∧ s.scheduler.active.Nodup
      rw [idle]
      exact ⟨.refl _, List.nodup_nil⟩
    · refine Play.After.get_bind ?_
      refine Play.After.bind (Q := fun _ u => u.Ledger false [] ∧ u.running = true)
        ⟨ht.1.deed (.aside (t.aside_note _ _)), ht.2⟩ fun _ u hu => ?_
      refine Play.After.bind (Q := fun _ v => v.Ledger false []) (hu.1.phase hu.2 rfl rfl)
        fun _ v hv => ?_
      exact restores_advanceStart v hv

/-! ## Calls -/

/-- What a call does without running scripts restores the ledger. -/
theorem lasting_ledger : Lasting .full (Ledger false []) where
  deed := Ledger.deed
  template s id t hs := ⟨⟨hs.drains, hs.busy, hs.idle⟩, hs.none⟩
  enroll {s t d} _ ht hs := by
    obtain ⟨x, stage, -, rfl⟩ := enroll_ok ht
    exact ⟨⟨hs.drains, hs.busy, hs.idle⟩, hs.none⟩
  clear _ s hs := by
    refine ⟨⟨hs.drains, hs.busy, fun hr => ?_⟩, fun _ => rfl⟩
    exact ⟨(hs.idle hr).1, (hs.idle hr).2.1, rfl⟩
  define s l hs := ⟨⟨hs.drains, hs.busy, hs.idle⟩, hs.none⟩
  forget _ s hs := ⟨⟨hs.drains, hs.busy, hs.idle⟩, hs.none⟩
  events s hs := ⟨⟨hs.drains, hs.busy, hs.idle⟩, hs.none⟩

theorem restores_call (c : Call) : Play.Restores (Ledger false []) c.run := by
  have hP := closed_restores (I := Ledger false []) Ledger.deed
  refine lasting_ledger.call hP (fun hf _ => hf) (fun c => ?_) c c.within_full
  exact hP.noting.scriptCall (hP.launching (restores_launchWith restores_makeClone []))
    restores_advanceStart restores_resumeAll (trying_restores Ledger.deed).tick restores_start
    (restores_createClone []) c

/-- **The run invariant**: between calls nothing is owed. -/
theorem ledger_of_reachable (h : Reachable s) : s.Ledger false [] := by
  induction h with
  | fresh config g budget =>
    exact ⟨⟨rfl, fun h => (by cases h), fun _ => ⟨rfl, rfl, rfl⟩⟩, fun _ => rfl⟩
  | call c _ hc ih => exact (restores_call c _ ih).of_eq hc

/-! ## The specification -/

/-- The scheduler of a session between calls. -/
structure Settled (s : Session) : Prop where
  active : ∀ k, k ∈ s.scheduler.active ↔ k ∈ s.waitingKeys
  once : s.waitingKeys.Nodup
  held : ∀ t ∈ s.scheduler.waiting, ∀ (clone : String → Play Unit) (b : Behavior),
    b.id = t.behavior → Play.launchWith clone t.entity b s = .ok false s
  outside : s.draining = false
  started : s.cloneStarts = []
  idle : s.running = false → s.scheduler.waiting = [] ∧ s.scheduler.startTask = none ∧
    s.scheduler.startQueue = [] ∧ s.loopsActive = false

/-- A behavior that is noted as under way is not launched. -/
theorem launchWith_of_isActive {entity : String} {b : Behavior}
    (h : s.scheduler.isActive entity b.id = true) (clone : String → Play Unit) :
    Play.launchWith clone entity b s = .ok false s := by
  show (if (!s.running || s.scheduler.isActive entity b.id) = true then pure false else _ :
    Play Bool) s = .ok false s
  rw [h, Bool.or_true, if_pos rfl]
  rfl

theorem Ledger.settled (h : s.Ledger false []) : s.Settled := by
  have same : ∀ k, k ∈ s.scheduler.active ↔ k ∈ s.waitingKeys := by
    intro k
    cases hr : s.running with
    | true => exact (h.busy hr).1.mem_iff
    | false =>
      rw [waitingKeys, (h.idle hr).1]
      exact Iff.rfl
  refine
    { active := same
      once := ?_
      held := fun t ht clone b hb => launchWith_of_isActive ?_ clone
      outside := h.drains
      started := h.none rfl
      idle := fun hr => ?_ }
  · cases hr : s.running with
    | true => exact (h.busy hr).1.nodup_iff.mp (h.busy hr).2
    | false =>
      rw [waitingKeys, (h.idle hr).1]
      exact List.nodup_nil
  · rw [Scheduler.isActive, hb]
    exact List.contains_iff_mem.mpr ((same _).mpr (List.mem_map_of_mem ht))
  · obtain ⟨idle, loops, _⟩ := h.idle hr
    rw [idle]
    exact ⟨rfl, rfl, rfl, loops⟩

/-- **Every session that a host can reach is settled**, whatever was called in whatever order and
    whatever the scripts do. -/
theorem settled_of_reachable (h : Reachable s) : s.Settled := (ledger_of_reachable h).settled

/-- Someone waits for ever once a key has been pressed. -/
def lurking : Session :=
  (fresh .usual (Generator.ofSeed 0) 0).after
    [.register (Spawn.new "a"),
      .addBehaviors "a" ⟨[⟨0, .key .any, [.waitUntil (.const (.bool false))]⟩], [], 1⟩,
      .script .start, .script (.keyDown "space")]

theorem settled_lurking : lurking.waitingKeys = [("a", 0)] ∧ lurking.Settled :=
  ⟨by decide +kernel, settled_of_reachable ((Reachable.fresh _ _ _).after _ (by decide +kernel))⟩

end Session

end BlockStage
