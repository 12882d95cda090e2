/-
  Finishing: when a call that runs scripts comes to an end.

  1. Scripts end or pause by themselves, so only the queue of clones can keep a call busy for ever:
     start scripts may make clones, and these wait in the queue that is being worked off.

  2. **The theorem (`finishes_iff`)** — a call finishes exactly if there is a bound on the deletions
     that it brings about.  For a call that is steady its deletions are those within some budget
     (`steady_scriptCall`), and a call that is frugal cannot use up a budget without deletions
     (`frugal_scriptCall`).

  3. **The limit on live clones is no such bound**: a clone that makes another and deletes itself
     leaves the session as it found it, so its call starts clones for ever (`Poised.progress`).
-/
import BlockStage.Proofs.Session.Load
import BlockStage.Proofs.Session.Settled
import Mathlib.Data.Finset.Lattice.Fold

namespace BlockStage

/-! ## Finishing -/

namespace Session

theorem calm_of_reachable {s : Session} (h : Reachable s) : s.Calm := by
  have ledger := ledger_of_reachable h
  exact ⟨ledger.drains, ledger.none rfl, (registry_of_visited h.visited).stage⟩

/-- **When calls finish**: a call that a host can make comes to an end exactly if the deletions that
    it brings about are bounded, however long it is let run. -/
theorem finishes_iff {s : Session} (h : Reachable s) (c : ScriptCall) :
    s.Finishes c ↔ ∃ k, ∀ n, (c.run.last (s.withBudget n)).deletions ≤ s.deletions + k := by
  constructor
  · rintro ⟨enough, hn⟩
    let told (n : Nat) : Nat := (c.run.last (s.withBudget n)).deletions
    refine ⟨(Finset.range (enough + 1)).sup told, fun n => ?_⟩
    -- from `enough` on the deletions stay the same, and below there are finitely many budgets
    have below : ∀ m ≤ enough, told m ≤ (Finset.range (enough + 1)).sup told :=
      fun m hm => Finset.le_sup (Finset.mem_range.mpr (Nat.lt_succ_of_le hm))
    have bounded : told n ≤ (Finset.range (enough + 1)).sup told := by
      rcases Nat.le_total n enough with few | many
      · exact below n few
      · have same : told n = told enough := by
          show (c.run.last (s.withBudget n)).deletions = _
          rw [last_of_le hn many]
          rfl
        rw [same]
        exact below enough (Nat.le_refl _)
    exact Nat.le_trans bounded (Nat.le_add_left _ _)
  · rintro ⟨k, hk⟩
    refine ⟨s.config.cloneLimit + k + 1, ?_⟩
    rintro ⟨t, ht⟩
    -- this budget is one more than the limit and the deletions together can use up
    have calm := calm_of_reachable h
    have rebudgeted : (s.withBudget (s.config.cloneLimit + k + 1)).Calm :=
      ⟨calm.draining, calm.starts, calm.stage⟩
    have used : s.config.cloneLimit + k + 1 + s.deletions ≤ s.config.cloneLimit + t.deletions :=
      (Play.frugal_scriptCall c _ rebudgeted).of_exhausts ht
    have told := hk (s.config.cloneLimit + k + 1)
    rw [Play.last, ht] at told
    have told : t.deletions ≤ s.deletions + k := told
    omega

/-- Clones that make clones, up to a limit of three. -/
def breeding : Session :=
  (fresh { Config.usual with cloneLimit := 3 } (Generator.ofSeed 0) 0).after
    [.register (Spawn.new "a"),
      .addBehaviors "a" ⟨[⟨0, .cloneStart, [.action (.createClone (.const (.text "")))]⟩], [], 1⟩,
      .saveTemplate "a", .script .start]

theorem finishes_breeding : breeding.running = true ∧
    ∃ k, ∀ n, ((ScriptCall.createClone "a").run.last (breeding.withBudget n)).deletions
      ≤ breeding.deletions + k := by
  refine ⟨by decide +kernel, ?_⟩
  have reachable : Reachable breeding := (Reachable.fresh _ _ _).after _ (by decide +kernel)
  refine (finishes_iff reachable (.createClone "a")).mp ⟨4, ?_⟩
  exact Play.not_exhausts_of_returns (by decide +kernel)

end Session

/-! ## A call that never finishes -/

/-- The clone number `k` of the prototype `a` stands alone beside it, free, without a body and not
    stopped. -/
structure Stage.Duo (st : Stage Float32) (k : Nat) : Prop where
  ids : st.ids = ["a", Session.cloneName "a" k]
  index : st.index = ⟨[("a", 0), (Session.cloneName "a" k, k)]⟩
  next : st.nextHandle = k + 1
  later : 0 < k
  actors : ∃ a b : Actor Float32, st.actors = ⟨[(0, a), (k, b)]⟩ ∧ a.prototype = none ∧
    b.prototype = some "a" ∧ b.parent = none ∧ b.children = [] ∧ b.body = none ∧ b.stopped = false

namespace Stage.Duo

variable {st : Stage Float32} {k : Nat}

theorem find? (h : st.Duo k) : st.find? (Session.cloneName "a" k) = some k := by
  have other := beq_eq_false_iff_ne.mpr (Session.cloneName_ne "a" k)
  simp [Stage.find?, h.index, Table.get?, List.lookup_cons, other]

theorem actor? (h : st.Duo k) : ∃ b, st.actor? k = some b ∧ b.prototype = some "a" ∧
    b.parent = none ∧ b.children = [] ∧ b.body = none ∧ b.stopped = false := by
  obtain ⟨a, b, actors, -, rest⟩ := h.actors
  have later := beq_eq_false_iff_ne.mpr (Nat.ne_of_gt h.later)
  refine ⟨b, ?_, rest⟩
  simp [Stage.actor?, actors, Table.get?, List.lookup_cons, later]

theorem clones (h : st.Duo k) : st.clones = 1 := by
  obtain ⟨b, there, cloned, -⟩ := h.actor?
  obtain ⟨a, _, actors, single, -⟩ := h.actors
  have first : st.namesClone "a" = false := by
    simp [namesClone, Stage.find?, h.index, Table.get?, isClone, Stage.actor?, actors, single]
  have second : st.namesClone (Session.cloneName "a" k) = true := by
    simp [namesClone, h.find?, isClone, there, cloned]
  rw [clones_eq, h.ids, List.countP_cons, List.countP_singleton, first, second]
  rfl

/-- A second clone comes, and the first one goes: again there is a pair. -/
theorem swap (h : st.Duo k) {d : Spawn Float32} (id : d.id = Session.cloneName "a" (k + 1))
    (prototype : d.prototype = some "a") (bare : d.body = none) :
    ∃ t, st.spawn d = .ok (k + 1, t) ∧ t.find? (Session.cloneName "a" k) = some k ∧
      t.isStopped k = false ∧ (t.despawn (Session.cloneName "a" k)).1 = true ∧
      (t.despawn (Session.cloneName "a" k)).2.Duo (k + 1) := by
  obtain ⟨a, b, actors, first, -, parent, children, lone, stopped⟩ := h.actors
  have other := beq_eq_false_iff_ne.mpr (Session.cloneName_ne "a" k)
  have other' := beq_eq_false_iff_ne.mpr (Session.cloneName_ne "a" (k + 1))
  have ne : Session.cloneName "a" (k + 1) ≠ Session.cloneName "a" k :=
    fun same => absurd (Session.cloneName_injective same) (by omega)
  have apart := beq_eq_false_iff_ne.mpr ne
  have later : (k == 0) = false := beq_eq_false_iff_ne.mpr (Nat.ne_of_gt h.later)
  have later' : (k + 1 == k) = false := beq_eq_false_iff_ne.mpr (by omega)
  have free : st.index.contains d.id = false := by
    rw [h.index, id, Table.contains, Table.get?, List.lookup_cons, other', List.lookup_cons, apart]
    rfl
  have spawned := spawn_of_bare (id ▸ Session.not_blank_cloneName "a" (k + 1)) free bare
  rw [h.next] at spawned
  -- for a moment there are three: the prototype, the old clone and the new one
  obtain ⟨t, spawned, ids, index, next, cast⟩ : ∃ t, st.spawn d = .ok (k + 1, t) ∧
      t.ids = ["a", Session.cloneName "a" k, Session.cloneName "a" (k + 1)] ∧
      t.index =
        ⟨[("a", 0), (Session.cloneName "a" k, k), (Session.cloneName "a" (k + 1), k + 1)]⟩ ∧
      t.nextHandle = k + 2 ∧ t.actors = ⟨[(0, a), (k, b), (k + 1, st.actorOf d)]⟩ := by
    refine ⟨_, spawned, ?_, ?_, rfl, ?_⟩
    · rw [h.ids, id]
      rfl
    · simp [h.index, id, Table.insert, Table.insertEntry, other', apart]
    · simp [actors, Table.insert, Table.insertEntry, later']
  have found : t.find? (Session.cloneName "a" k) = some k := by
    rw [Stage.find?, index, Table.get?, List.lookup_cons, other, List.lookup_cons,
      beq_self_eq_true]
  have there : t.actor? k = some b := by
    rw [Stage.actor?, cast, Table.get?, List.lookup_cons, later, List.lookup_cons,
      beq_self_eq_true]
  refine ⟨t, spawned, found, ?_, ?_⟩
  · rw [isStopped, there]
    exact stopped
  rw [despawn_of_lone found there parent children lone]
  refine ⟨rfl, ?_, ?_, next, by omega, a, st.actorOf d, ?_, first, prototype, rfl, rfl, rfl, rfl⟩
  · simp [ids, bne, beq_eq_false_iff_ne.mpr (Session.cloneName_ne "a" k).symm, apart]
  · simp [index, Table.erase, Session.cloneName_ne "a" k, ne.symm]
  · simp [cast, Table.erase, Nat.ne_of_gt h.later]

end Stage.Duo

namespace Session

/-- The start script of a clone that makes another clone and deletes itself. -/
def spinner : Behavior :=
  ⟨0, .cloneStart, [.action (.createClone (.const (.text ""))), .action .deleteSelf]⟩

/-- Beside the prototype is one clone, and whatever is cloned from the prototype spins. -/
structure Spins (s : Session) : Prop where
  running : s.running = true
  room : 1 < s.config.cloneLimit
  stage : s.stage.Duo s.cloneSerial
  template : ∃ d, s.templates.get? "a" = some ⟨d, (Catalog.empty.register spinner).2⟩ ∧
    d.body = none
  catalog : s.catalogs.get? (cloneName "a" s.cloneSerial) = some (Catalog.empty.register spinner).2

/-- A clone that spins leaves behind a session in which one spins, and waits for its start. -/
theorem Spins.turn {s : Session} (hs : s.Spins) (starts : s.cloneStarts = []) :
    let id := cloneName "a" s.cloneSerial
    let t := (s.requestClone id).2
    let u := (t.deleteEntity id).2
    t.mayRun id = true ∧ u.Spins ∧ u.cloneStarts = [cloneName "a" u.cloneSerial] ∧
      u.scheduler = s.scheduler := by
  intro id t u
  obtain ⟨d, known, bare⟩ := hs.template
  obtain ⟨b, there, prototype, -⟩ := hs.stage.actor?
  have source : s.prototypeOf id = "a" := by
    rw [prototypeOf, handle?, hs.stage.find?, Option.bind_some, there]
    show b.prototype.getD id = "a"
    rw [prototype]
    rfl
  have room : s.liveClones < s.config.cloneLimit := by
    have one : s.liveClones = 1 := hs.stage.clones
    exact one ▸ hs.room
  let template : Template := ⟨d, (Catalog.empty.register spinner).2⟩
  let next := cloneName "a" (s.cloneSerial + 1)
  obtain ⟨stage, spawned, found, free, gone, swapped⟩ := hs.stage.swap
    (s.cloneSpawn_id template "a" next) (s.cloneSpawn_prototype template "a" next)
    ((s.cloneSpawn_body template "a" next).trans bare)
  -- first the new clone is made, and everything but its start has been done
  let settled := { s with cloneSerial := s.cloneSerial + 1 }.settleClone template "a" next stage
  have settles : settled.running = true := hs.running
  have made : t = { settled with cloneStarts := settled.cloneStarts ++ [next] } := by
    have answer := requestClone_of_spawn source known room spawned
    rw [show t = settled.queueStarts next from congrArg Prod.snd answer, queueStarts, if_pos settles]
  obtain ⟨onStage, running, waiting, serial, catalogs, config, templates, scheduler⟩ :
      t.stage = stage ∧ t.running = true ∧ t.cloneStarts = [next] ∧
      t.cloneSerial = s.cloneSerial + 1 ∧ t.catalogs = s.catalogs.insert next template.catalog ∧
      t.config = s.config ∧ t.templates = s.templates ∧ t.scheduler = s.scheduler := by
    rw [made]
    refine ⟨rfl, hs.running, ?_, rfl, rfl, rfl, rfl, rfl⟩
    show s.cloneStarts ++ [next] = [next]
    rw [starts]
    rfl
  -- then the old one deletes itself, and with it its catalog and its values
  have left : u = ({ t with
      stage := (stage.despawn id).2
      catalogs := t.catalogs.erase id
      store := (t.store.dropLocals id).2 }.emit (.deleted id)).note .action (id ++ " deleted") := by
    show (t.deleteEntity id).2 = _
    rw [deleteEntity, onStage, ← Prod.eta (stage.despawn id), gone]
  have other : (next == id) = false := beq_eq_false_iff_ne.mpr fun same =>
    absurd (cloneName_injective same) (by omega)
  refine ⟨?_, ?_, ?_, ?_⟩
  · rw [mayRun, running, isLive, handle?, onStage, found]
    show (true && !stage.isStopped s.cloneSerial) = true
    rw [free]
    rfl
  · rw [left]
    refine ⟨running, config ▸ hs.room, ?_, templates ▸ hs.template, ?_⟩
    · show (stage.despawn id).2.Duo t.cloneSerial
      rw [serial]
      exact swapped
    · show (t.catalogs.erase id).get? (cloneName "a" t.cloneSerial) = _
      rw [serial, catalogs, Table.get?_erase, other, Table.get?_insert, beq_self_eq_true]
      rfl
  · rw [left]
    show t.cloneStarts = [cloneName "a" t.cloneSerial]
    rw [waiting, serial]
  · rw [left]
    exact scheduler

end Session

namespace Play

/-- A clone that spins makes another and is gone. -/
theorem run_spinner {s : Session} {id : String} (may : s.mayRun id = true)
    (still : (s.requestClone id).2.mayRun id = true) :
    (host queueClone id).run [.sequence Session.spinner.body] s
      = .ok .finished ((s.requestClone id).2.deleteEntity id).2 := by
  have alive : ∀ t : Session, (host queueClone id).alive t = .ok (t.mayRun id) t := fun _ => rfl
  have made : (host queueClone id).resolve (.action (.createClone (.const (.text "")))) s
      = .ok .proceed (s.requestClone id).2 := rfl
  have gone : ∀ t : Session, (host queueClone id).resolve (.action .deleteSelf) t
      = .ok .finish (t.deleteEntity id).2 := fun _ => rfl
  rw [Session.spinner, Host.run_take rfl, bind_of_ok (alive s), may]
  -- the script asks again before its second block, and may go on: it is not deleted yet
  refine (bind_of_ok made).trans ?_
  show (host queueClone id).run [.sequence [.action .deleteSelf]] _ = _
  rw [Host.run_take rfl, bind_of_ok (alive _), still]
  exact bind_of_ok (gone _)

/-- What each start of a clone brings about anew never ends. -/
theorem exhausts_of_progress {I : Session → Prop}
    (progress : ∀ s, I s → ∃ t, I t ∧ ∀ n, startClones (n + 1) s = startClones n t) (n : Nat)
    (s : Session) (hs : I s) : (startClones n).Exhausts s := by
  induction n generalizing s with
  | zero => exact ⟨s, rfl⟩
  | succ n ih =>
    obtain ⟨t, ht, turn⟩ := progress s hs
    rw [Exhausts, turn]
    exact ih t ht

end Play

namespace Session

/-- A clone that spins waits for its start, and nothing is under way. -/
structure Poised (s : Session) : Prop extends Spins s where
  starts : s.cloneStarts = [cloneName "a" s.cloneSerial]
  idle : s.scheduler.active = []

/-- Its start is over at once, and the next one waits. -/
theorem Spins.launch {s : Session} (hs : s.Spins) (starts : s.cloneStarts = [])
    (idle : s.scheduler.active = []) :
    ∃ u, Play.launchWith Play.queueClone (cloneName "a" s.cloneSerial) spinner s = .ok true u ∧
      u.Poised := by
  let id := cloneName "a" s.cloneSerial
  let t : Session := { s with scheduler := s.scheduler.activate id 0 }
  have ht : t.Spins := ⟨hs.running, hs.room, hs.stage, hs.template, hs.catalog⟩
  obtain ⟨still, spins, waits, same⟩ := ht.turn starts
  obtain ⟨b, there, -, -, -, -, free⟩ := hs.stage.actor?
  have may : t.mayRun id = true := by
    rw [mayRun, ht.running, isLive, handle?, hs.stage.find?]
    show (true && !s.stage.isStopped s.cloneSerial) = true
    rw [Stage.isStopped, there]
    show (true && !b.stopped) = true
    rw [free]
    rfl
  let u := ((t.requestClone id).2.deleteEntity id).2
  have sliced : Play.runSlice Play.queueClone (Task.new id spinner) t = .ok none u :=
    (Play.bind_of_ok (Play.run_spinner may still)).trans rfl
  have new : ¬(!s.running || s.scheduler.isActive id spinner.id) = true := by
    rw [hs.running, Scheduler.isActive, idle]
    exact Bool.false_ne_true
  refine ⟨{ u with scheduler := u.scheduler.deactivate id 0 }, ?_,
    ⟨spins.running, spins.room, spins.stage, spins.template, spins.catalog⟩, waits, ?_⟩
  · refine (Play.bind_of_ok (p := get) (a := s) (t := s) rfl).trans ?_
    rw [if_neg new]
    have begun : Play.schedule (fun q => q.activate id spinner.id) s = .ok () t := rfl
    exact (Play.bind_of_ok begun).trans ((Play.bind_of_ok sliced).trans rfl)
  · have key : u.scheduler.active = [(id, 0)] := by
      rw [same]
      show (s.scheduler.activate id 0).active = _
      rw [Scheduler.activate, Scheduler.isActive, idle]
      rfl
    show (u.scheduler.deactivate id 0).active = []
    rw [Scheduler.deactivate, key, List.filter_cons_of_neg (by simp)]
    rfl

theorem Poised.progress {s : Session} (hs : s.Poised) :
    ∃ t, Poised t ∧ ∀ n, Play.startClones (n + 1) s = Play.startClones n t := by
  let t : Session := { s with cloneStarts := [] }
  have ht : t.Spins := ⟨hs.running, hs.room, hs.stage, hs.template, hs.catalog⟩
  obtain ⟨u, launched, hu⟩ := ht.launch rfl hs.idle
  refine ⟨u, hu, fun n => ?_⟩
  have starts : t.behaviors (cloneName "a" t.cloneSerial) Play.startsClone = [spinner] := by
    rw [behaviors, ht.catalog]
    rfl
  rw [Play.startClones, Play.bind_of_ok (Play.nextCloneStart_cons hs.starts)]
  have asked : Play.ask (fun s => s.behaviors (cloneName "a" t.cloneSerial) Play.startsClone) t
      = .ok [spinner] t := by
    rw [← starts]
    rfl
  have discarded : discard (Play.launchWith Play.queueClone (cloneName "a" t.cloneSerial) spinner) t
      = .ok () u := (Play.bind_of_ok launched).trans rfl
  have run : [spinner].forM (fun b => discard (Play.launchWith Play.queueClone
      (cloneName "a" t.cloneSerial) b)) t = .ok () u := (Play.bind_of_ok discarded).trans rfl
  exact (Play.bind_of_ok asked).trans (Play.bind_of_ok run)

/-- A running session in which the prototype of clones that spin is alone on stage. -/
def spinning : Session :=
  (fresh .usual (Generator.ofSeed 0) 0).after
    [.register (Spawn.new "a"), .addBehaviors "a" ⟨[spinner], [], 1⟩, .saveTemplate "a",
      .script .start]

theorem spins_spinning : (spinning.requestClone "a").2.Spins where
  running := rfl
  room := by decide +kernel
  stage := by
    have serial : (spinning.requestClone "a").2.cloneSerial = 1 := rfl
    rw [serial]
    have index : (spinning.requestClone "a").2.stage.index.entries
        = [("a", 0), (cloneName "a" 1, 1)] := by decide +kernel
    refine ⟨by decide +kernel, congrArg Table.mk index, rfl, Nat.one_pos, ?_⟩
    exact ⟨_, _, rfl, rfl, rfl, rfl, rfl, rfl, rfl⟩
  template := ⟨_, rfl, rfl⟩
  catalog := rfl

/-- A call that makes a clone which spins uses up every budget. -/
theorem not_finishes_of_poised {s t : Session} {source id : String}
    (made : s.requestClone source = (.ok id, t)) (outside : t.draining = false) (ht : t.Poised) :
    ¬s.Finishes (.createClone source) := by
  rintro ⟨n, finishes⟩
  let v : Session := { t.withBudget n with draining := true }
  have hv : v.Poised :=
    ⟨⟨ht.running, ht.room, ht.stage, ht.template, ht.catalog⟩, ht.starts, ht.idle⟩
  obtain ⟨u, hu⟩ := Play.exhausts_of_progress (fun _ hs => hs.progress) n v hv
  have requested : Play.changing (fun s => s.requestClone source) (s.withBudget n)
      = .ok (.ok id) (t.withBudget n) := by
    have blind : (s.withBudget n).requestClone source
        = ((s.requestClone source).1, (s.requestClone source).2.withBudget n) :=
      (apart_requestClone source).blind s n
    rw [made] at blind
    rw [Play.changing_apply, blind]
  have drained : Play.startQueuedClones (t.withBudget n) = .error .budgetExhausted u := by
    refine (Play.bind_of_ok (p := get) (a := t.withBudget n) (t := t.withBudget n) rfl).trans ?_
    have go : ((t.withBudget n).running && !(t.withBudget n).draining) = true := by
      show (t.running && !t.draining) = true
      rw [ht.running, outside]
      rfl
    rw [if_pos go]
    have begun : Play.change (fun s => { s with draining := true }) (t.withBudget n)
        = .ok () v := rfl
    exact (Play.bind_of_ok begun).trans (Play.bind_of_error hu)
  have created : Play.createClone source (s.withBudget n) = .error .budgetExhausted u :=
    (Play.bind_of_ok requested).trans (Play.bind_of_error drained)
  exact finishes ⟨u, Play.bind_of_error created⟩

/-- **The limit on clones does not make calls finish**: a clone that makes another one and deletes
    itself leaves room for the next. -/
theorem not_finishes_spinning : Reachable spinning ∧ ¬spinning.Finishes (.createClone "a") := by
  refine ⟨(Reachable.fresh _ _ _).after _ (by decide +kernel), ?_⟩
  have made : spinning.requestClone "a" = (.ok "a__clone_1", (spinning.requestClone "a").2) := rfl
  have poised : (spinning.requestClone "a").2.Poised :=
    ⟨spins_spinning, by decide +kernel, by decide +kernel⟩
  exact not_finishes_of_poised made rfl poised

end Session

end BlockStage
