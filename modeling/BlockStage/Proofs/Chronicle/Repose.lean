/-
  Repose: stopped entities run nothing.

  1. **Specification (`Session.Repose`)** — once an entity has been stopped, by its host, by a block
     of a script or with everything else, or is not on stage, nothing of its scripts is done at any
     moment: no statement, no action, no condition, no turn of a loop, and no look at what a task
     waits for, which is how glides move.  This lasts until the entity is woken: the next start wakes
     those on stage, and a registration or the making of a clone wakes the id that it gives out.

  2. **The invariant (`Session.Asleep`)** — an entity is asleep while the session is idle or the
     entity rests on the stage.  Whatever happens between two moments or at one of them, whoever is
     asleep stays asleep, unless woken (`asleep_change`, `asleep_effect`), and what stops an entity
     puts it to sleep (`asleep_of_stops`).

  3. Scripts are seen at work only while their entity may run, and that is while it is awake.
-/
import BlockStage.Proofs.Chronicle.Faithful
import BlockStage.Proofs.Stage.Rest

namespace BlockStage

/-! ## Stopping and waking -/

/-- Does an occasion stop the entity, or take it off the stage? -/
def Occasion.Stops (id : String) : Occasion → Prop
  | .call (.entity e .stop) => e = id
  | .call (.entity e .delete) => e = id
  | .call .stopAll => True
  | .call .cleanup => True
  | .call (.loadScene _) => True
  | .work e _ (.act .stopSelf) => e = id
  | .work e _ (.act .deleteSelf) => e = id
  | .work _ _ (.act .stopAll) => True
  | _ => False

/-- Does the entity take part again from a moment on?  A start wakes those on stage, and whoever
    comes on stage is awake. -/
def Moment.Wakes (id : String) (m : Moment) : Prop :=
  match m.occasion with
  | .start => m.session.handle? id ≠ none
  | .clone source => (m.session.requestClone source).1 = .ok id
  | .call c => c.Brings id ∧ m.session.handle? id = none
  | _ => False

namespace Session

variable {id : String} {s t : Session}

/-- The session is idle, or the entity rests. -/
def Asleep (id : String) (s : Session) : Prop := s.running = true → s.stage.Rests id

/-- Scripts of an entity may not go on exactly while it is asleep. -/
theorem mayRun_eq_false : s.mayRun id = false ↔ s.Asleep id := by
  rw [mayRun, Bool.and_eq_false_iff, Asleep, isLive, handle?]
  cases s.running with
  | false => exact iff_of_true (.inl rfl) fun h => by cases h
  | true =>
    cases found : s.stage.find? id with
    | none => exact iff_of_true (.inr rfl) fun _ => Stage.rests_of_none found
    | some x =>
      constructor
      · rintro (h | h) _ y hy
        · cases h
        · rw [Option.some.inj (hy.symm.trans found)]
          simpa using h
      · intro h
        have stopped := h rfl x found
        exact .inr (by simp [stopped])

/-! ## Whoever is asleep stays asleep -/

theorem Asleep.idle (h : s.running = false) : s.Asleep id := by
  intro running
  rw [h] at running
  cases running

theorem Asleep.same (hs : s.Asleep id) (running : t.running = s.running)
    (stage : t.stage = s.stage) : t.Asleep id := by
  intro h
  rw [running] at h
  rw [stage]
  exact hs h

theorem Asleep.calm (hs : s.Asleep id) (running : t.running = s.running)
    (stage : s.stage.Calm t.stage) : t.Asleep id := fun h => (hs (running ▸ h)).calm stage

theorem Asleep.aside (hs : s.Asleep id) (h : s.Aside t) : t.Asleep id := by
  rw [h.rest]
  exact hs

/-- Whoever is taken off the stage, everyone else stays asleep. -/
theorem Asleep.deleteEntity (hs : s.Asleep id) (order : s.stage.Orderly) (gone : String) :
    (s.deleteEntity gone).2.Asleep id := by
  rcases deleteEntity_cases order gone with ⟨-, same⟩ | ⟨h, stage, despawned, left⟩
  · rw [same]
    exact hs
  · rw [left]
    exact fun running => (hs running).despawned order despawned

theorem asleep_feat (h : Feat s t) (order : s.stage.Orderly) (hs : s.Asleep id) : t.Asleep id := by
  cases h with
  | beside h => exact hs.aside h.toAside
  | stage h => exact hs.calm rfl h
  | write id key v => exact hs
  | loop loop body h => exact hs
  | delete gone => exact hs.deleteEntity order gone
  | stop => exact .idle s.running_stopAll

theorem asleep_feats (h : Feats s t) (hr : s.Registry) (hs : s.Asleep id) : t.Asleep id := by
  -- the registry goes along, since leaving is described by the order of the stage
  have both : t.Registry ∧ t.Asleep id := by
    induction h with
    | refl => exact ⟨hr, hs⟩
    | tail _ feat ih => exact ⟨ih.1.deed feat.deed, asleep_feat feat ih.1.stage ih.2⟩
  exact both.2

/-- Whoever comes on stage under another id wakes nobody. -/
theorem asleep_enroll {d : Spawn Float32} (ht : s.enroll d = .ok t) (order : s.stage.Orderly)
    (other : d.id ≠ id) (hs : s.Asleep id) : t.Asleep id := by
  obtain ⟨x, stage, spawned, rfl⟩ := enroll_ok ht
  exact fun running => (hs running).spawned (Stage.spawned_of_spawn order.fresh spawned) other

theorem asleep_chores {brings saves : String → Prop} {adds : Behavior → Prop}
    (h : Chores brings saves adds s t) (hr : s.Registry) (other : ¬brings id) (hs : s.Asleep id) :
    t.Asleep id := by
  have both : t.Registry ∧ t.Asleep id := by
    induction h with
    | refl => exact ⟨hr, hs⟩
    | tail _ chore ih =>
      refine ⟨chore.lasting stable_registry.toLasting ih.1, ?_⟩
      cases chore with
      | trick h => exact asleep_feat h.feat ih.1.stage ih.2
      | enroll hd h => exact asleep_enroll h ih.1.stage (fun same => other (same ▸ hd)) ih.2
      | _ => exact ih.2
  exact both.2

/-- Nobody can be brought on stage under an id that is taken. -/
theorem enroll_of_taken {d : Spawn Float32} (taken : s.stage.find? d.id ≠ none) :
    ∀ t, s.enroll d ≠ .ok t := by
  intro t h
  obtain ⟨x, stage, spawned, -⟩ := enroll_ok h
  exact taken (Option.not_isSome_iff_eq_none.mp (Bool.eq_false_iff.mp (Stage.free_of_spawn spawned)))

theorem stage_costumesOf (entity : String) (ids : List String) (s : Session) :
    (s.costumesOf entity ids).2.stage = s.stage := by
  induction ids generalizing s with
  | nil => rfl
  | cons id rest ih =>
    rw [costumesOf]
    split
    · exact ih s
    · exact ih _

/-- Loading an entity under an id that is taken changes nothing on stage. -/
theorem stage_loadEntity_of_taken {e : EntityDescription} (taken : s.handle? e.id ≠ none) :
    (s.loadEntity e).2.stage = s.stage := by
  have same := stage_costumesOf e.id e.costumes s
  have refused := enroll_of_taken (s := (s.costumesOf e.id e.costumes).2)
    (d := spawnOf e (s.costumesOf e.id e.costumes).1) (by
      rw [same]
      exact taken)
  rw [loadEntity]
  dsimp only
  split
  · exact same
  · rename_i ht
    exact absurd ht (refused _)

/-- A call that runs no scripts wakes only whom it brings on stage anew. -/
theorem asleep_plain {c : Call} (hc : c.Plain) (hr : s.Registry)
    (wakes : ¬(c.Brings id ∧ s.handle? id = none)) (hs : s.Asleep id) :
    (c.run.last s).Asleep id := by
  by_cases keeps : c.KeepsScene
  · by_cases brings : c.Brings id
    · -- the id is taken, so the call is refused
      have taken : s.handle? id ≠ none := fun none => wakes ⟨brings, none⟩
      cases c with
      | register d =>
        obtain rfl : d.id = id := brings
        show (Call.orSame s (s.enroll d)).Asleep d.id
        cases ht : s.enroll d with
        | error e => exact hs
        | ok t => exact absurd ht (enroll_of_taken taken t)
      | loadEntity e =>
        obtain rfl : e.id = id := brings
        exact hs.same (loads_loadEntity s e).running (stage_loadEntity_of_taken taken)
      | _ => exact brings.elim
    · exact asleep_chores (c.chores hc keeps s) hr brings hs
  · exact .idle (Call.idle_of_clears keeps s)

theorem asleep_clone {r : Except SessionError String} (order : s.stage.Orderly) (other : r ≠ .ok id)
    (h : CloneStep s r t) (hs : s.Asleep id) : t.Asleep id := by
  cases h with
  | refused serial h =>
    refine Asleep.aside ?_ h
    exact hs
  | made room known spawned locals rest named =>
    refine Asleep.aside (fun running => ?_) rest
    refine (hs running).spawned (Stage.spawned_of_spawn order.fresh spawned) ?_
    rw [cloneSpawn_id]
    exact fun same => other (congrArg Except.ok same)

theorem stage_finishStart (s : Session) :
    (Play.finishStart s).stage = s.stage ∧ (Play.finishStart s).running = s.running := by
  rw [Play.finishStart, Play.foldl_renewTemplate]
  exact ⟨rfl, rfl⟩

/-- **Whatever happens between two moments wakes nobody.** -/
theorem asleep_change (h : Change s t) (hr : s.Registry) (hs : s.Asleep id) : t.Asleep id := by
  cases h with
  | feat h => exact asleep_feat h hr.stage hs
  | _ => exact hs

/-- **Whatever happens at a moment wakes nobody** but whom the moment is said to wake. -/
theorem asleep_effect {o : Occasion} (h : Effect o s t) (hr : s.Registry)
    (wakes : ¬Moment.Wakes id ⟨o, s⟩) (hs : s.Asleep id) : t.Asleep id := by
  cases h with
  | plain h => exact asleep_plain h hr wakes hs
  | start h =>
    -- the marks are taken back, but nobody bears the id
    have nobody : s.stage.find? id = none := Classical.not_not.mp wakes
    refine fun _ => Stage.rests_of_none ?_
    exact (congrFun (s.stage.sameCast_setAllStopped false).find? id).trans nobody
  | @work _ entity behavior w h => exact asleep_feats (w.feats entity s) hr hs
  | clone source => exact asleep_clone hr.stage wakes (s.requestClone_step source) hs
  | complete h =>
    obtain ⟨stage, running⟩ :=
      stage_finishStart { s with scheduler := { s.scheduler with starting := false } }
    exact hs.same running stage
  | _ => exact hs

/-! ## Whoever is stopped falls asleep -/

theorem asleep_stopEntity (order : s.stage.Orderly) : (s.stopEntity id).2.Asleep id := by
  rw [stopEntity]
  cases found : s.handle? id with
  | none => exact fun _ => Stage.rests_of_none found
  | some x => exact fun _ => order.rests_stopped found

theorem asleep_deleteEntity (order : s.stage.Orderly) : (s.deleteEntity id).2.Asleep id := by
  cases found : s.stage.find? id with
  | none => exact Asleep.deleteEntity (fun _ => Stage.rests_of_none found) order id
  | some h =>
    obtain ⟨stage, despawned, left⟩ := deleteEntity_of_find? order found
    rw [left]
    refine fun _ => Stage.rests_of_none ?_
    exact (despawned.find? id).trans (if_pos (beq_self_eq_true id))

/-- **What stops an entity puts it to sleep.** -/
theorem asleep_of_stops {o : Occasion} (h : Effect o s t) (hr : s.Registry) (stops : o.Stops id) :
    t.Asleep id := by
  cases h with
  | @plain _ c h =>
    cases c with
    | entity e c =>
      cases c with
      | stop =>
        obtain rfl : e = id := stops
        exact asleep_stopEntity hr.stage
      | delete =>
        obtain rfl : e = id := stops
        exact asleep_deleteEntity hr.stage
      | _ => exact stops.elim
    | stopAll => exact .idle s.running_stopAll
    | cleanup => exact .idle (Call.idle_of_clears (c := .cleanup) not_false s)
    | loadScene scene => exact .idle (Call.idle_of_clears (c := .loadScene scene) not_false s)
    | _ => exact stops.elim
  | @call _ c h =>
    cases c with
    | script c => exact stops.elim
    | broadcast message => exact stops.elim
    | _ => exact absurd trivial h
  | @work _ entity behavior w h =>
    cases w with
    | act a =>
      cases a with
      | stopSelf =>
        obtain rfl : entity = id := stops
        exact asleep_stopEntity hr.stage
      | deleteSelf =>
        obtain rfl : entity = id := stops
        exact asleep_deleteEntity hr.stage
      | stopAll => exact .idle s.running_stopAll
      | _ => exact stops.elim
    | _ => exact stops.elim
  | _ => exact stops.elim

/-! ## Along a trace -/

/-- Whoever is asleep is still asleep at the end of a trace, unless woken on the way. -/
theorem asleep_trace {A : Occasion → Prop} {l : List Moment} (h : Trace A s l t) (hr : s.Registry)
    (unwoken : ∀ m ∈ l, ¬m.Wakes id) (hs : s.Asleep id) : t.Asleep id := by
  induction h with
  | start => exact hs
  | change h k ih => exact asleep_change k (stable_registry.trace h hr) (ih unwoken)
  | moment h ho k ih =>
    refine asleep_effect k (stable_registry.trace h hr) (unwoken _ ?_) (ih fun m hm => unwoken m ?_)
    · exact List.mem_append_right _ List.mem_cons_self
    · exact List.mem_append_left _ hm

/-! ## The specification -/

/-- What can be said of the scripts of stopped entities while calls are made. -/
structure Repose (s : Session) (calls : List Call) : Prop where
  /-- Calls that are watched end as they do, and change the session as they do. -/
  same : ∀ (c : Call) (u : Session), (c.watched u).1 = c.run u
  /-- Whatever a script does, it does while its entity may run. -/
  awake : ∀ m ∈ s.chronicle calls, ∀ id behavior w, m.occasion = .work id behavior w →
    m.session.mayRun id = true
  /-- From a moment on at which the entity is stopped, or may not run for whatever reason, until it
      is woken, it may not run and none of its scripts does anything. -/
  lasting : ∀ before m between n after id,
    s.chronicle calls = before ++ m :: (between ++ n :: after) →
    (m.occasion.Stops id ∨ m.session.mayRun id = false) → (∀ k ∈ m :: between, ¬k.Wakes id) →
    n.session.mayRun id = false ∧ ∀ behavior w, n.occasion ≠ .work id behavior w

/-- At work are only those that may run. -/
theorem mayRun_of_trace {A : Occasion → Prop} {before after : List Moment} {n : Moment}
    (h : Trace A s (before ++ n :: after) t) {behavior : Nat} {w : Work}
    (hn : n.occasion = .work id behavior w) : n.session.mayRun id = true := by
  obtain ⟨-, -, u, effect, -⟩ := h.split
  rw [hn] at effect
  cases effect with
  | work h => exact h

/-- **Stopped entities run nothing**: whichever calls came before and whichever are made, whatever
    the scripts do to one another, and whichever way a script is run. -/
theorem repose_of_visited (hs : Visited s) (calls : List Call) : s.Repose calls where
  same c := c.told.same
  awake m hm id behavior w hw := by
    obtain ⟨before, after, hl⟩ := List.append_of_mem hm
    exact mayRun_of_trace (hl ▸ s.trace_chronicle calls) hw
  lasting before m between n after id hl stops unwoken := by
    have trace := hl ▸ s.trace_chronicle calls
    obtain ⟨first, -, u, effect, rest⟩ := trace.split
    obtain ⟨middle, -, -⟩ := rest.split
    have order := stable_registry.trace first (registry_of_visited hs)
    have fallen : u.Asleep id := by
      rcases stops with stops | idle
      · exact asleep_of_stops effect order stops
      · exact asleep_effect effect order (unwoken m List.mem_cons_self) (mayRun_eq_false.mp idle)
    have later : u.Registry :=
      stable_registry.trace (Trace.start.moment (A := fun _ => True) trivial effect) order
    have still := asleep_trace middle later (fun k hk => unwoken k (List.mem_cons_of_mem m hk)) fallen
    have idle := mayRun_eq_false.mpr still
    refine ⟨idle, fun behavior w hw => ?_⟩
    have may := mayRun_of_trace rest hw
    rw [idle] at may
    cases may

/-- Someone goes through costumes in a start script, one in each update. -/
def pacing : Session :=
  (fresh .usual (Generator.ofSeed 0) 5).after
    [.register (Spawn.new "a"),
      .addBehaviors "a" ⟨[⟨0, .start,
        [.repeatUntil (.const (.bool false)) [.action .nextCostume]]⟩], [], 1⟩,
      .script .start]

/-- The script is at work in the first update, and after the stop it is over at once: what follows
    are the stop itself, the second update, and the end of the start phase. -/
theorem repose_pacing :
    pacing.Repose [.script (.updateBy 0), .entity "a" .stop, .script (.updateBy 0)] ∧
      (pacing.chronicle [.script (.updateBy 0), .entity "a" .stop, .script (.updateBy 0)]).map
        (fun m => m.session.mayRun "a") = List.replicate 11 true ++ List.replicate 5 false :=
  ⟨repose_of_visited ((Visited.fresh _ _ _).after _) _, by decide +kernel⟩

end Session

end BlockStage
