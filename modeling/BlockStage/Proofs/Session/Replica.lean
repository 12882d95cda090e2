/-
  Replicas: what a clone has of its prototype, and what it leaves alone.

  1. **Specification (`Session.Replica`)** — a clone gets the catalog of the template.  Made of someone
     on stage, it is as visible and as deep as that one is now and reads every variable alike; made of
     someone who has left, it is as the template says and reads the default of every local.  Nobody
     else on stage changes, nor what they do, know and wait for.

  2. **Three sources** — the clone is put together from the template, from the live prototype and from
     the store of variables.  What a request that is granted does is said once
     (`Session.Joined`), and the three are looked up in it one after the other.

  3. **The crux** — a clone of someone who has left keeps whatever local values are already filed under
     its id (`VariableStore.addLocals`).  It reads defaults because there are none: locals are kept for
     those on stage only (`Session.Registry`), and the clone was not there.
-/
import BlockStage.Proofs.Session.Declined
import BlockStage.Proofs.Session.Registry
import BlockStage.Proofs.Stage.Operation
import BlockStage.Proofs.Variable.Store

namespace BlockStage

/-! ## Someone new on stage -/

/-- Whoever comes on stage is as described, save for a body, and everyone else stays the same. -/
theorem Stage.actor?_of_spawn {α : Type} [Scalar α] {s t : Stage α} {d : Spawn α} {h : Handle}
    (ht : s.spawn d = .ok (h, t)) :
    ∃ body, ∀ x, t.actor? x = if x = h then some { s.actorOf d with body := body } else s.actor? x := by
  obtain ⟨rfl, rfl⟩ := eq_of_spawn ht
  let u := s.receive (s.actorOf d)
  have placed := s.actor?_receive (s.actorOf d)
  show ∃ body, ∀ x, (u.embody s.nextHandle d.body).actor? x = _
  cases d.body with
  | none => exact ⟨none, placed⟩
  | some settings =>
    rcases u.enablePhysics_cases s.nextHandle settings with same | ⟨a, b, ha, -, -, -, entered⟩
    · refine ⟨none, fun x => ?_⟩
      rw [embody, same]
      exact placed x
    · refine ⟨some b, fun x => ?_⟩
      show (u.enablePhysics s.nextHandle settings).2.actor? x = _
      rw [entered, enter, actor?_modify]
      by_cases new : x = s.nextHandle
      · rw [if_pos (beq_iff_eq.mpr new), if_pos new]
        show (u.actor? s.nextHandle).map _ = _
        rw [placed, if_pos rfl]
        rfl
      · rw [if_neg fun same => new (eq_of_beq same), if_neg new]
        exact (placed x).trans (if_neg new)

namespace VariableStore

/-- A local map that is given to somebody is read by that one alone. -/
theorem find?_addLocals_of_ne (s : VariableStore) {entity reader : String} (other : reader ≠ entity)
    (key : String) : (s.addLocals entity).find? reader key = s.find? reader key := by
  unfold addLocals
  split
  · rfl
  · rw [find?_eq, find?_eq, definition?_congr rfl rfl]
    refine congrArg (Option.map · _) (funext fun d => ?_)
    unfold reading
    cases scope : d.scope with
    | global => rw [stored?_of_global scope, stored?_of_global scope]
    | «local» =>
      rw [stored?_of_local scope, stored?_of_local scope, Table.get?_insert,
        if_neg fun same => other (eq_of_beq same)]

/-- Whoever had no local map and is given one reads the default of every local. -/
theorem find?_addLocals_self (s : VariableStore) {entity key : String} {d : VariableDefinition}
    (none : s.locals.contains entity = false) (found : s.definition? key = some d)
    (scope : d.scope = .local) : (s.addLocals entity).find? entity key = some d.defaultValue := by
  have stands : (s.addLocals entity).definition? key = some d := by
    unfold addLocals
    rw [none]
    exact found
  unfold addLocals at stands ⊢
  rw [none, if_neg Bool.false_ne_true] at stands ⊢
  rw [find?_eq, stands, Option.map_some, reading, stored?_of_local scope, Table.get?_insert,
    if_pos (beq_self_eq_true _)]
  rfl

end VariableStore

namespace Session

variable {s t : Session} {source c o : String}

/-! ## Requests that are granted -/

/-- The actor that bears an id. -/
def actor? (s : Session) (id : String) : Option (Actor Float32) :=
  (s.handle? id).bind s.stage.actor?

/-- What a request for a clone has done when it is granted. -/
theorem requestClone_granted (h : s.requestClone source = (.ok c, t)) :
    ∃ m x stage, s.templates.get? (s.prototypeOf source) = some m ∧
      s.stage.spawn (s.cloneSpawn m (s.prototypeOf source) c) = .ok (x, stage) ∧
      t = ({ s with cloneSerial := s.cloneSerial + 1 }.settleClone m (s.prototypeOf source) c
        stage).queueStarts c := by
  have added : s.addClone source = (.ok c, t) := by
    unfold requestClone at h
    split at h
    · cases h
    · exact h
  unfold addClone at added
  dsimp only at added
  split at added
  · cases added
  rename_i m known
  split at added
  · cases added
  unfold spawnClone at added
  split at added
  · cases added
  rename_i x stage spawned
  cases added
  exact ⟨m, x, stage, known, spawned, rfl⟩

/-- A request does not start the session. -/
theorem running_of_granted (granted : s.requestClone source = (.ok c, t)) : t.running = s.running := by
  obtain ⟨m, x, stage, -, -, rfl⟩ := requestClone_granted granted
  unfold queueStarts
  split <;> rfl

/-- In an idle session a clone is made and nothing is started. -/
theorem createClone_ok_iff_of_idle (idle : s.running = false) :
    Play.createClone source s = .ok (.ok c) t ↔ s.requestClone source = (.ok c, t) := by
  cases asked : s.requestClone source with
  | mk answer u =>
    cases answer with
    | error e =>
      rw [createClone_of_error asked]
      exact ⟨fun h => (by cases h), fun h => (by cases h)⟩
    | ok id =>
      have resting : Play.startQueuedClones u = .ok () u := by
        show (if u.running && !u.draining then _ else (pure () : Play Unit)) u = _
        rw [running_of_granted asked, idle]
        rfl
      rw [createClone_of_ok asked, Play.bind_of_ok resting]
      exact ⟨fun h => (by cases h; rfl), fun h => (by cases h; rfl)⟩

/-- How a clone is to be drawn: like its prototype, if that is on stage, or as the template says. -/
theorem cloneSpawn_look (m : Template) {o c : String} :
    ((s.cloneSpawn m o c).visible, (s.cloneSpawn m o c).depth)
      = match s.actor? o with
        | some a => (a.look.visible, a.look.depth)
        | none => (m.spawn.visible, m.spawn.depth) := by
  unfold cloneSpawn actor?
  cases s.handle? o with
  | none => rfl
  | some h =>
    simp only [Option.bind_some]
    unfold Stage.spawnOf? Stage.world?
    cases s.stage.actor? h <;> rfl

/-! ## The specification -/

/-- What can be said of a clone `c` that has been made of a prototype `o` with a template `m`. -/
structure Replica (s t : Session) (m : Template) (o c : String) : Prop where
  /-- The clone is somebody new, with the behaviors of the template. -/
  new : s.handle? c = none ∧ (∃ b, t.actor? c = some b ∧ b.prototype = some o) ∧
    t.catalogs.get? c = some m.catalog
  /-- Of a prototype on stage it has the looks as they are now, and reads every variable alike. -/
  copied : ∀ h, s.handle? o = some h → ∃ a b, s.stage.actor? h = some a ∧ t.actor? c = some b ∧
    b.look.visible = a.look.visible ∧ b.look.depth = a.look.depth ∧
    ∀ key, t.store.find? c key = t.store.find? o key
  /-- Of one who has left it has what the template says, and reads the default of every local. -/
  restored : s.handle? o = none → ∃ b, t.actor? c = some b ∧
    b.look.visible = m.spawn.visible ∧ b.look.depth = m.spawn.depth ∧
    ∀ key d, t.store.definition? key = some d → d.scope = .local →
      t.store.find? c key = some d.defaultValue
  /-- Everybody else is the same, with the same behaviors, and reads the same. -/
  others : ∀ id, id ≠ c → t.handle? id = s.handle? id ∧ t.actor? id = s.actor? id ∧
    t.catalogs.get? id = s.catalogs.get? id ∧ ∀ key, t.store.find? id key = s.store.find? id key
  /-- No task has come or gone. -/
  tasks : t.scheduler = s.scheduler ∧ t.cloneStarts = s.cloneStarts

/-! ## Who has joined -/

/-- Somebody new has come on stage as a template and a prototype describe, has a catalog and a local
    map of its own, and nothing else has happened. -/
structure Joined (s t : Session) (m : Template) (o c : String) : Prop where
  named : c ≠ o
  free : s.handle? c = none
  arrived : ∃ body, t.actor? c = some { s.stage.actorOf (s.cloneSpawn m o c) with body := body }
  handle : ∀ id, id ≠ c → t.handle? id = s.handle? id
  actor : ∀ id, id ≠ c → t.actor? id = s.actor? id
  catalogs : t.catalogs = s.catalogs.insert c m.catalog
  store : t.store
    = if (s.handle? o).isSome then s.store.copyLocals o c else s.store.addLocals c
  tasks : t.scheduler = s.scheduler ∧ t.cloneStarts = s.cloneStarts

/-- In an idle session the clone that is granted joins, and its start scripts are not queued. -/
theorem Registry.joined (hs : s.Registry) (idle : s.running = false)
    (granted : s.requestClone source = (.ok c, t)) :
    ∃ m, s.templates.get? (s.prototypeOf source) = some m ∧
      s.Joined t m (s.prototypeOf source) c := by
  have named := requestClone_ok (congrArg Prod.fst granted)
  obtain ⟨m, x, stage, known, spawned, made⟩ := requestClone_granted granted
  generalize s.prototypeOf source = o at *
  have id : (s.cloneSpawn m o c).id = c := cloneSpawn_id s m o c
  have came := Stage.spawned_of_spawn hs.stage.fresh spawned
  obtain ⟨body, seen⟩ := Stage.actor?_of_spawn spawned
  -- nothing is queued, so the session after it is the one in which the clone was settled
  have settled : t = { s with cloneSerial := s.cloneSerial + 1 }.settleClone m o c stage := by
    rw [made]
    unfold queueStarts
    exact if_neg (Bool.eq_false_iff.mp idle)
  have stages : t.stage = stage := settled ▸ rfl
  have found : ∀ j, t.handle? j = if j = c then some x else s.handle? j := by
    intro j
    show t.stage.find? j = _
    rw [stages, came.find?, id]
    simp only [beq_iff_eq]
    rfl
  have others : ∀ j, j ≠ c → t.handle? j = s.handle? j := fun j other => by
    rw [found, if_neg other]
  refine ⟨m, known, ?_, ?_, ⟨body, ?_⟩, others, fun j other => ?_, settled ▸ rfl, settled ▸ rfl,
    settled ▸ ⟨rfl, rfl⟩⟩
  · rw [named]
    exact cloneName_ne o _
  · have free := came.free
    rw [id] at free
    exact Option.not_isSome_iff_eq_none.mp (Bool.eq_false_iff.mp free)
  · rw [actor?, found, if_pos rfl, Option.bind_some, stages, seen, if_pos rfl]
  · rw [actor?, actor?, others j other]
    cases there : s.handle? j with
    | none => rfl
    | some h =>
      -- whoever was there has an older handle than the clone
      have old : h ≠ x := by
        rintro rfl
        exact hs.stage.fresh (came.handle ▸ hs.stage.mem_keys_of_find? there)
      rw [Option.bind_some, Option.bind_some, stages, seen, if_neg old]

namespace Joined

variable {m : Template} (joined : s.Joined t m o c)
include joined

/-- Whoever joins looks as it is to be drawn. -/
theorem looks {visible : Bool} {depth : Int}
    (drawn : ((s.cloneSpawn m o c).visible, (s.cloneSpawn m o c).depth) = (visible, depth)) :
    ∃ b, t.actor? c = some b ∧ b.look.visible = visible ∧ b.look.depth = depth := by
  obtain ⟨body, arrived⟩ := joined.arrived
  obtain ⟨shown, deep⟩ := Prod.mk.inj drawn
  exact ⟨_, arrived, shown, deep⟩

theorem copied (hs : s.Registry) {h : Handle} (live : s.handle? o = some h) :
    ∃ a b, s.stage.actor? h = some a ∧ t.actor? c = some b ∧
      b.look.visible = a.look.visible ∧ b.look.depth = a.look.depth ∧
      ∀ key, t.store.find? c key = t.store.find? o key := by
  obtain ⟨a, there, -⟩ := hs.stage.bears o h live
  have now : s.actor? o = some a := by
    rw [actor?, live, Option.bind_some, there]
  have drawn := cloneSpawn_look (s := s) m (o := o) (c := c)
  rw [now] at drawn
  obtain ⟨b, arrived, visible, depth⟩ := joined.looks drawn
  refine ⟨a, b, there, arrived, visible, depth, fun key => ?_⟩
  rw [joined.store, if_pos (Option.isSome_iff_exists.mpr ⟨h, live⟩), VariableStore.find?_copyLocals,
    VariableStore.find?_copyLocals, if_pos rfl, if_neg joined.named.symm]

theorem restored (hs : s.Registry) (gone : s.handle? o = none) :
    ∃ b, t.actor? c = some b ∧ b.look.visible = m.spawn.visible ∧ b.look.depth = m.spawn.depth ∧
      ∀ key d, t.store.definition? key = some d → d.scope = .local →
        t.store.find? c key = some d.defaultValue := by
  have nobody : s.actor? o = none := by
    rw [actor?, gone, Option.bind_none]
  have drawn := cloneSpawn_look (s := s) m (o := o) (c := c)
  rw [nobody] at drawn
  obtain ⟨b, arrived, visible, depth⟩ := joined.looks drawn
  -- locals are kept for those on stage only, so none are kept for the clone
  have bare : s.store.locals.contains c = false := by
    refine Bool.eq_false_iff.mpr fun kept => ?_
    obtain ⟨h, there⟩ := hs.stage.mem_ids.mp ((hs.locals c).mp kept)
    cases joined.free.symm.trans there
  have left : ¬(s.handle? o).isSome = true := by
    rw [gone]
    exact Bool.false_ne_true
  refine ⟨b, arrived, visible, depth, fun key d stands scope => ?_⟩
  rw [joined.store, if_neg left] at stands ⊢
  refine VariableStore.find?_addLocals_self _ bare ?_ scope
  rw [← stands]
  unfold VariableStore.addLocals
  split
  · rfl
  · exact (VariableStore.definition?_congr rfl rfl key).symm

/-- Nobody else reads anything else than before. -/
theorem reads {id : String} (other : id ≠ c) (key : String) :
    t.store.find? id key = s.store.find? id key := by
  rw [joined.store]
  split
  · rw [VariableStore.find?_copyLocals, if_neg other]
  · exact s.store.find?_addLocals_of_ne other key

end Joined

/-- **A clone that is granted is a replica**, and all that has changed is that it is there. -/
theorem Registry.replica (hs : s.Registry) (idle : s.running = false)
    (granted : s.requestClone source = (.ok c, t)) :
    ∃ m, s.templates.get? (s.prototypeOf source) = some m ∧
      s.Replica t m (s.prototypeOf source) c := by
  obtain ⟨m, known, joined⟩ := hs.joined idle granted
  refine ⟨m, known, ?new, fun h live => joined.copied hs live, joined.restored hs,
    fun id other => ?others, joined.tasks⟩
  case new =>
    obtain ⟨body, arrived⟩ := joined.arrived
    refine ⟨joined.free, ⟨_, arrived, cloneSpawn_prototype s m _ c⟩, ?_⟩
    rw [joined.catalogs, Table.get?_insert, if_pos (beq_self_eq_true c)]
  case others =>
    refine ⟨joined.handle id other, joined.actor id other, ?_, joined.reads other⟩
    rw [joined.catalogs, Table.get?_insert, if_neg fun same => other (eq_of_beq same)]

/-- **Clones are faithful**: whatever has been called before, a clone that an idle session makes of
    whoever is behind an id has the catalog of the template, the looks and the values of a prototype
    that is on stage, or the looks of the template and the default values of one who has left; and
    nobody else is any different. -/
theorem replica_of_visited (hs : Visited s) (idle : s.running = false)
    (made : Play.createClone source s = .ok (.ok c) t) :
    ∃ m, s.templates.get? (s.prototypeOf source) = some m ∧
      s.Replica t m (s.prototypeOf source) c :=
  (registry_of_visited hs).replica idle ((createClone_ok_iff_of_idle idle).mp made)

/-- Someone merry has been made a template, has gone into hiding behind all others, and has been
    cloned; the clone has turned grim. -/
def parting : Session :=
  (fresh .usual (Generator.ofSeed 0) 0).after
    [.defineVariables [⟨"v-mood", "mood", .string, .local, .text "calm"⟩], .register (Spawn.new "a"),
      .saveTemplate "a", .entity "a" (.setVariable "mood" (.text "merry")),
      .entity "a" (.setVisible false), .entity "a" (.setDepth (-7)), .script (.createClone "a"),
      .entity "a__clone_1" (.setVariable "mood" (.text "grim"))]

/-- A clone that is made on behalf of the first one is merry and hidden; one that is made when both
    have left is calm and can be seen. -/
theorem replica_parting :
    let left := parting.after [.entity "a" .delete, .entity "a__clone_1" .delete]
    let twin := (parting.requestClone "a__clone_1").2
    let heir := (left.requestClone "a__clone_1").2
    (parting.handle? "a").isSome = true ∧ left.stage.ids = [] ∧
      (∃ m, parting.Replica twin m "a" "a__clone_2") ∧ ∃ m, left.Replica heir m "a" "a__clone_2" := by
  intro left twin heir
  have granted : ∀ s : Session, s.refusal? "a__clone_1" = none →
      s.requestClone "a__clone_1"
        = (.ok (s.nextCloneName "a__clone_1"), (s.requestClone "a__clone_1").2) := by
    intro s free
    rcases s.requestClone_cases "a__clone_1" with ⟨e, t, refused, -⟩ | ⟨-, granted⟩
    · rw [free] at refused
      cases refused
    · exact Prod.ext granted rfl
  have visited : Visited parting := (Visited.fresh _ _ _).after _
  obtain ⟨m, -, first⟩ := replica_of_visited visited (by decide +kernel)
    ((createClone_ok_iff_of_idle (by decide +kernel)).mpr (granted parting (by decide +kernel)))
  obtain ⟨n, -, second⟩ := replica_of_visited (visited.after _) (by decide +kernel)
    ((createClone_ok_iff_of_idle (by decide +kernel)).mpr (granted left (by decide +kernel)))
  have named : parting.prototypeOf "a__clone_1" = "a" ∧
      parting.nextCloneName "a__clone_1" = "a__clone_2" := by decide +kernel
  have renamed : left.prototypeOf "a__clone_1" = "a" ∧
      left.nextCloneName "a__clone_1" = "a__clone_2" := by decide +kernel
  rw [named.1, named.2] at first
  rw [renamed.1, renamed.2] at second
  exact ⟨by decide +kernel, by decide +kernel, ⟨m, first⟩, ⟨n, second⟩⟩

end Session

end BlockStage
