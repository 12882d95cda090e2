/-
  The nursery: the queue of clones is worked off clone by clone.

  1. **Specification (`Session.Drain`)** — clones wait in the order in which they were asked for.  At
     its turn a clone runs its start scripts in the order of its catalog (`Session.Debut`), each of
     them whole: between its launch and the next one there is only its own work, and the clones it
     asks for wait behind all others.  A clone that has left the stage is passed over, and in a
     session that has stopped nobody has a turn.

  2. **The invariant (`Session.Nursery`)** — the queue holds the ids of these clones, and each of them
     has the start scripts that it had when it was made, unless it is gone.  Their ids are new, so
     nobody else comes on stage under one of them, and what is launched meanwhile is under way under
     other ids.

  3. **The crux (`Session.Spell`)** — while the queue is being worked off, a script only adds to it.
     So as long as the session runs, tasks are as they were, and the queue is longer by what has
     been asked for (`Spell.nursery`).
-/
import BlockStage.Proofs.Chronicle.Opening
import BlockStage.Proofs.Chronicle.Catalogue
import BlockStage.Proofs.Chronicle.Tale
import BlockStage.Proofs.Session.Ceiling
import BlockStage.Proofs.Session.Provenance
import BlockStage.Proofs.Session.Vacancy

namespace BlockStage

open Session (Trace Change Effect Feat Feats)

/-! ## Clones that are to start -/

/-- A clone, and the start scripts that it is to run. -/
structure Newcomer where
  id : String
  starts : List Behavior

/-- The launches that a clone waits for. -/
def Newcomer.launches (n : Newcomer) : List (String × Behavior) := n.starts.map fun b => (n.id, b)

namespace Session

/-- The start scripts of an entity of which no instance is under way, in the order of its catalog. -/
def startsOf (s : Session) (id : String) : List Behavior :=
  (s.behaviors id Play.startsClone).filter fun b => !s.scheduler.isActive id b.id

/-- The clone that a request makes while the session is running, with all start scripts of its
    catalog, but for those of which an instance is under way. -/
def newcomer? (s : Session) (source : String) : Option Newcomer :=
  match s.running, s.requestClone source with
  | true, (.ok id, t) => some ⟨id, t.startsOf id⟩
  | _, _ => none

end Session

/-- The clone that is asked for at a moment, if one is made that is to start. -/
def Moment.newcomer? : Moment → Option Newcomer
  | ⟨.clone source, s⟩ => s.newcomer? source
  | _ => none

theorem Moment.newcomers_cons (k : Moment) (l : List Moment) :
    (k :: l).filterMap Moment.newcomer? = k.newcomer?.toList ++ l.filterMap Moment.newcomer? := by
  cases new : k.newcomer? with
  | none => exact List.filterMap_cons_none new
  | some n => exact List.filterMap_cons_some new

/-- What is seen of one script: its work, the messages it queues and the clones it asks for. -/
def Occasion.Of (entity : String) (behavior : Nat) : Occasion → Prop
  | .work e b _ => e = entity ∧ b = behavior
  | .clone _ => True
  | .post _ => True
  | _ => False

theorem Occasion.Of.going {entity : String} {behavior : Nat} {o : Occasion}
    (h : o.Of entity behavior) : o.Going := by
  cases o with
  | work | clone | post => exact trivial
  | _ => exact h.elim

/-! ## What is under way -/

theorem Scheduler.isActive_activate (q : Scheduler) (entity : String) (b : Nat) (j : String)
    (c : Nat) :
    (q.activate entity b).isActive j c = (q.isActive j c || (j, c) == (entity, b)) := by
  rw [activate]
  split
  · rename_i active
    by_cases same : (j, c) = (entity, b)
    · obtain ⟨rfl, rfl⟩ := Prod.mk.inj same
      rw [active, Bool.true_or]
    · rw [beq_eq_false_iff_ne.mpr same, Bool.or_false]
  · rw [isActive, isActive, List.contains_append, List.contains_cons, List.contains_nil,
      Bool.or_false]

theorem Scheduler.isActive_activate_of_ne (q : Scheduler) {entity j : String} {b c : Nat}
    (other : (j, c) ≠ (entity, b)) : (q.activate entity b).isActive j c = q.isActive j c := by
  rw [isActive_activate, beq_eq_false_iff_ne.mpr other, Bool.or_false]

theorem Scheduler.isActive_deactivate (q : Scheduler) (entity : String) (b : Nat) (j : String)
    (c : Nat) :
    (q.deactivate entity b).isActive j c = (q.isActive j c && !((j, c) == (entity, b))) := by
  rw [deactivate, isActive, isActive, Bool.eq_iff_iff, List.contains_iff_mem, List.mem_filter,
    Bool.and_eq_true, List.contains_iff_mem]

theorem Scheduler.isActive_deactivate_of_ne (q : Scheduler) {entity j : String} {b c : Nat}
    (other : (j, c) ≠ (entity, b)) : (q.deactivate entity b).isActive j c = q.isActive j c := by
  rw [isActive_deactivate, beq_eq_false_iff_ne.mpr other, Bool.not_false, Bool.and_true]

namespace Session

/-! ## The specification -/

/-- A clone runs start scripts in order, each of them whole, unless the session stops before. -/
inductive Debut (id : String) : Session → List Behavior → List Moment → Session → Prop where
  | done {s : Session} : Debut id s [] [] s
  | stopped {s : Session} {bs : List Behavior} (idle : s.running = false) : Debut id s bs [] s
  | launch {s t u : Session} {b : Behavior} {bs : List Behavior} {inside l : List Moment}
    (starts : Play.startsClone b.trigger = true)
    (run : Chronicle.launchWith Chronicle.queueClone id b s
      = (.ok true t, ⟨.launch id b, s⟩ :: inside))
    (own : ∀ k ∈ inside, k.occasion.Of id b.id) (others : Debut id t bs l u) :
    Debut id s (b :: bs) (⟨.launch id b, s⟩ :: inside ++ l) u

/-- Clones that wait have their turns, and so have those that are asked for meanwhile. -/
inductive Drain : List Newcomer → Session → List Moment → Session → Prop where
  | done {s : Session} : Drain [] s [] s
  | stopped {s : Session} {queue : List Newcomer} (idle : s.running = false) : Drain queue s [] s
  | gone {s t : Session} {n : Newcomer} {rest : List Newcomer} {l : List Moment}
    (absent : s.handle? n.id = none)
    (others : Drain rest { s with cloneStarts := rest.map Newcomer.id } l t) :
    Drain (n :: rest) s l t
  | turn {s t u : Session} {n : Newcomer} {rest : List Newcomer} {l m : List Moment}
    (debut : Debut n.id { s with cloneStarts := rest.map Newcomer.id } n.starts l t)
    (others : Drain (rest ++ l.filterMap Moment.newcomer?) t m u) : Drain (n :: rest) s (l ++ m) u

/-- In an idle session nothing is launched. -/
theorem Debut.of_idle {id : String} {s t : Session} {bs : List Behavior} {l : List Moment}
    (h : Debut id s bs l t) (idle : s.running = false) : l = [] ∧ t = s := by
  cases h with
  | done => exact ⟨rfl, rfl⟩
  | stopped => exact ⟨rfl, rfl⟩
  | @launch _ _ _ b _ _ _ _ run =>
    have refused : (!s.running || s.scheduler.isActive id b.id) = true := by
      rw [idle]
      rfl
    rw [Chronicle.launchWith_of_refused refused] at run
    cases congrArg Prod.fst run

/-! ## Spells of work -/

/-- One script has been at work, has queued messages and asked for clones, and nothing else has
    been done. -/
inductive Spell (entity : String) (behavior : Nat) (s : Session) : List Moment → Session → Prop where
  | start : Spell entity behavior s [] s
  | feat {l : List Moment} {t u : Session} (h : Spell entity behavior s l t) (k : Feat t u) :
    Spell entity behavior s l u
  | moment {l : List Moment} {t u : Session} {o : Occasion} (h : Spell entity behavior s l t)
    (ho : o.Of entity behavior) (k : Effect o t u) : Spell entity behavior s (l ++ [⟨o, t⟩]) u

namespace Spell

variable {entity : String} {behavior : Nat} {s t u : Session} {l m : List Moment}

theorem trans (h : Spell entity behavior s l t) (k : Spell entity behavior t m u) :
    Spell entity behavior s (l ++ m) u := by
  induction k with
  | start =>
    rw [List.append_nil]
    exact h
  | feat _ feat ih => exact ih.feat feat
  | moment _ ho effect ih =>
    rw [← List.append_assoc]
    exact ih.moment ho effect

theorem own (h : Spell entity behavior s l t) : ∀ k ∈ l, k.occasion.Of entity behavior := by
  induction h with
  | start => exact fun _ hk => (List.not_mem_nil hk).elim
  | feat _ _ ih => exact ih
  | moment _ ho _ ih =>
    exact List.forall_mem_append.mpr ⟨ih, List.forall_mem_singleton.mpr ho⟩

theorem tale (entity : String) (behavior : Nat) :
    Chronicle.Tale (Occasion.Of entity behavior) (Spell entity behavior) where
  start _ := .start
  trans := trans
  feat h := .feat .start h
  moment ho h := .moment .start ho h

/-- A slice of a script is a spell of its work, if clones are only queued. -/
theorem slice (task : Task) :
    Chronicle.Obeys (Spell task.entity task.behavior) (Chronicle.slice Chronicle.queueClone task) := by
  have hR := tale task.entity task.behavior
  refine hR.slice (fun source => ?_) (fun _ => trivial) task fun _ => ⟨rfl, rfl⟩
  refine hR.discarded (hR.seen trivial (fun s _ => ?_) fun _ _ _ _ _ => trivial)
  exact ⟨_, .clone source, .refl _⟩

end Spell

theorem Spell.trace {entity : String} {behavior : Nat} {s t : Session} {l : List Moment}
    (h : Spell entity behavior s l t) : Trace Occasion.Going s l t := by
  induction h with
  | start => exact .start
  | feat _ k ih => exact ih.change (.feat k)
  | moment _ ho k ih => exact ih.moment ho.going k

/-! ## Newcomers -/

variable {s t : Session} {id source : String} {l : List Moment}

theorem newcomer?_of_ok (running : s.running = true) (made : s.requestClone source = (.ok id, t)) :
    s.newcomer? source = some ⟨id, t.startsOf id⟩ := by rw [newcomer?, running, made]

theorem newcomer?_of_error {e : SessionError} (refused : s.requestClone source = (.error e, t)) :
    s.newcomer? source = none := by
  rw [newcomer?, refused]
  cases s.running <;> rfl

theorem newcomer?_of_idle (idle : s.running = false) : s.newcomer? source = none := by
  rw [newcomer?, idle]

/-- The numbers of clones are new, also of those that are to start. -/
theorem Numbered.newcomer {ids : List String} (h : Numbered s t ids) (source : String) :
    Numbered s (t.requestClone source).2 (ids ++ (t.newcomer? source).toList.map Newcomer.id) := by
  have all := h.clone (t.requestClone_step source)
  cases running : t.running with
  | false =>
    rw [newcomer?_of_idle running]
    refine ⟨all.later, ?_, fun id hid => ?_⟩
    · exact (List.append_nil ids).symm ▸ h.distinct
    · exact all.serial id (List.mem_append_left _ (List.append_nil ids ▸ hid))
  | true =>
    rcases made : t.requestClone source with ⟨e | id, u⟩
    · rw [made] at all
      rw [newcomer?_of_error made]
      exact all
    · rw [made] at all
      rw [newcomer?_of_ok running made]
      exact all

theorem Change.cloneSerial (h : Change s t) : t.cloneSerial = s.cloneSerial := by
  cases h with
  | feat h => exact h.deed.fixed.2.1
  | _ => rfl

/-- **The clones that are made in a call have different ids**, which tell new numbers. -/
theorem Trace.numbered (h : Trace Occasion.Going s l t) :
    Numbered s t ((l.filterMap Moment.newcomer?).map Newcomer.id) := by
  induction h with
  | start => exact .refl s
  | change _ k ih => exact ih.idle (Nat.le_of_eq k.cloneSerial.symm)
  | @moment l t u o _ ho k ih =>
    rw [List.filterMap_append, List.map_append]
    -- besides requests nothing changes the number
    have quiet : Moment.newcomer? ⟨o, t⟩ = none → u.cloneSerial = t.cloneSerial →
        Numbered s u ((l.filterMap Moment.newcomer?).map Newcomer.id ++
          (List.filterMap Moment.newcomer? [⟨o, t⟩]).map Newcomer.id) := by
      intro none same
      rw [List.filterMap_cons_none none, List.filterMap_nil, List.map_nil, List.append_nil]
      exact ih.idle (Nat.le_of_eq same.symm)
    cases k with
    | call | plain | start => exact ho.elim
    | clone source =>
      rw [Moment.newcomers_cons, List.filterMap_nil, List.append_nil]
      exact ih.newcomer source
    | @work _ entity behavior w _ =>
      refine quiet rfl ((w.feats entity t).deeds.keep
        (I := fun u => u.cloneSerial = t.cloneSerial) (fun _ _ k same => ?_) rfl)
      exact k.fixed.2.1.trans same
    | complete _ =>
      refine quiet rfl ?_
      rw [(upkeep_finishStart _).rest]
      rfl
    | _ => exact quiet rfl rfl

theorem Numbered.unnamed {ids : List String} (h : Numbered s t ids) : ∀ id ∈ ids, t.Unnamed id := by
  intro id hid
  obtain ⟨prototype, n, rfl, -, old⟩ := h.serial id hid
  exact unnamed_cloneName prototype old

/-- An id that is not to be given to a clone any more is given to none. -/
theorem Unnamed.notMem {ids : List String} (h : s.Unnamed id) (k : Numbered s t ids) : id ∉ ids := by
  intro hid
  obtain ⟨prototype, n, same, new, -⟩ := k.serial id hid
  exact h prototype n new same.symm

theorem Unnamed.later (h : s.Unnamed id) (later : s.cloneSerial ≤ t.cloneSerial) : t.Unnamed id :=
  fun prototype n hn => h prototype n (Nat.lt_of_le_of_lt later hn)

/-! ## The invariant -/

variable {n : Newcomer} {queue : List Newcomer}

/-- Whoever has no catalog is not on stage. -/
theorem Registry.absent_of_catalog (hs : s.Registry) (without : s.catalogs.get? id = none) :
    s.handle? id = none := by
  cases there : s.handle? id with
  | none => rfl
  | some x =>
    have kept := (hs.catalogs id).mpr (hs.stage.mem_ids.mpr ⟨x, there⟩)
    rw [Table.contains, without] at kept
    cases kept

/-- The start scripts that are found under the id are those of the clone, unless it is gone. -/
def Awaits (s : Session) (n : Newcomer) : Prop :=
  s.catalogs.get? n.id = none ∨ s.startsOf n.id = n.starts

/-- What holds while clones wait for their start. -/
structure Nursery (s : Session) (queue : List Newcomer) : Prop where
  registry : s.Registry
  catalogued : s.Catalogued
  once : (queue.map Newcomer.id).Nodup
  unnamed : ∀ n ∈ queue, s.Unnamed n.id
  queued : s.running = true → s.cloneStarts = queue.map Newcomer.id
  awaits : s.running = true → ∀ n ∈ queue, s.Awaits n
  idle : s.running = false → s.cloneStarts = []

/-- A clone has come under a new id, with a catalog of its own, and waits if the session runs. -/
structure Arrives (s : Session) (id : String) (t : Session) : Prop where
  named : ∃ prototype, id = cloneName prototype (s.cloneSerial + 1)
  next : t.cloneSerial = s.cloneSerial + 1
  running : t.running = s.running
  tasks : t.scheduler = s.scheduler
  queued : t.cloneStarts = if s.running then s.cloneStarts ++ [id] else s.cloneStarts
  others : ∀ j, j ≠ id → t.catalogs.get? j = s.catalogs.get? j

theorem CloneStep.arrives (h : CloneStep s (.ok id) t) : s.Arrives id t := by
  cases h with
  | @made _ _ prototype template x stage store room known spawned locals rest named =>
    rw [rest.rest]
    refine ⟨⟨prototype, named⟩, rfl, rfl, rfl, rfl, fun j other => ?_⟩
    show (s.catalogs.insert id template.catalog).get? j = s.catalogs.get? j
    rw [Table.get?_insert, if_neg fun same => other (eq_of_beq same)]

/-- A feat leaves the queue and the tasks alone, or the session has stopped. -/
theorem Feat.settled (h : Feat s t) :
    (t.running = s.running ∧ t.cloneStarts = s.cloneStarts ∧ t.scheduler = s.scheduler) ∨
      t.running = false ∧ t.cloneStarts = [] := by
  cases h with
  | beside h =>
    rw [h.rest]
    exact .inl ⟨rfl, rfl, rfl⟩
  | delete id =>
    rw [Session.deleteEntity]
    split <;> exact .inl ⟨rfl, rfl, rfl⟩
  | stop =>
    rw [stopAll]
    split
    · exact .inl ⟨rfl, rfl, rfl⟩
    · exact .inr ⟨rfl, rfl⟩
  | _ => exact .inl ⟨rfl, rfl, rfl⟩

/-- Who has the same catalog listens alike. -/
theorem behaviors_congr {id : String} (same : t.catalogs.get? id = s.catalogs.get? id)
    (test : Trigger → Bool) : t.behaviors id test = s.behaviors id test := by
  rw [behaviors, behaviors, same]

/-- Whose catalog is the one that it was had a catalog, and listens alike. -/
theorem listens_of_catalog_eq {id : String} {c : Catalog} (known : t.catalogs.get? id = some c)
    (same : t.catalogs.get? id = s.catalogs.get? id) :
    (s.catalogs.get? id).isSome = true ∧
      ∀ test : Trigger → Bool, test .forever = false →
        t.behaviors id test = s.behaviors id test := by
  refine ⟨?_, fun test _ => behaviors_congr same test⟩
  rw [← same, known]
  rfl

/-- Feats change catalogs by looping behaviors only, or take them away. -/
theorem Feat.catalog (h : Feat s t) (id : String) :
    t.catalogs.get? id = none ∨ (s.catalogs.get? id).isSome = true ∧
      ∀ test : Trigger → Bool, test .forever = false → t.behaviors id test = s.behaviors id test := by
  cases known : t.catalogs.get? id with
  | none => exact .inl rfl
  | some c =>
    refine .inr ?_
    have same : t.catalogs = s.catalogs → (s.catalogs.get? id).isSome = true ∧
        ∀ test : Trigger → Bool, test .forever = false →
          t.behaviors id test = s.behaviors id test :=
      fun catalogs => listens_of_catalog_eq known (by rw [catalogs])
    cases h with
    | beside h =>
      refine same ?_
      rw [h.rest]
      rfl
    | @loop entity d n body found =>
      refine ⟨?_, fun test ht => behaviors_loop n body found id ht⟩
      have known : (s.catalogs.insert entity (d.register ⟨n, .forever, body⟩).2).get? id = some c :=
        known
      rw [Table.get?_insert] at known
      split at known
      · rename_i same
        rw [eq_of_beq same, found]
        rfl
      · rw [known]
        rfl
    | delete gone =>
      rw [Session.deleteEntity] at known ⊢
      split at known
      · exact listens_of_catalog_eq known rfl
      · refine listens_of_catalog_eq known ?_
        have known : (s.catalogs.erase gone).get? id = some c := known
        rw [Table.get?_erase] at known
        split at known
        · cases known
        · rename_i other
          show (s.catalogs.erase gone).get? id = s.catalogs.get? id
          rw [Table.get?_erase, if_neg other]
    | stop =>
      refine same ?_
      rw [stopAll]
      split <;> rfl
    | _ => exact same rfl

theorem Awaits.feat (h : Feat s t) (tasks : t.scheduler = s.scheduler) (hs : s.Awaits n) :
    t.Awaits n := by
  rcases h.catalog n.id with gone | ⟨known, same⟩
  · exact .inl gone
  · rcases hs with none | starts
    · rw [none] at known
      cases known
    · refine .inr ?_
      rw [startsOf, same _ rfl, tasks]
      exact starts

namespace Nursery

/-- Only the stage, catalogs, the queue and what is under way under the ids of the queue count. -/
theorem same (hs : s.Nursery queue) (registry : t.Registry) (catalogs : t.catalogs = s.catalogs)
    (templates : t.templates = s.templates) (serial : s.cloneSerial ≤ t.cloneSerial)
    (running : t.running = s.running) (queued : t.cloneStarts = s.cloneStarts)
    (tasks : ∀ n ∈ queue, ∀ b, t.scheduler.isActive n.id b = s.scheduler.isActive n.id b) :
    t.Nursery queue where
  registry := registry
  catalogued := hs.catalogued.same catalogs templates
  once := hs.once
  unnamed n hn := (hs.unnamed n hn).later serial
  queued run := queued.trans (hs.queued (running ▸ run))
  awaits run n hn := by
    refine (hs.awaits (running ▸ run) n hn).imp (catalogs ▸ ·) fun starts => ?_
    rw [← starts, startsOf, startsOf, behaviors, behaviors, catalogs]
    exact List.filter_congr fun b _ => by rw [tasks n hn]
  idle stopped := queued.trans (hs.idle (running ▸ stopped))

theorem feat (h : Feat s t) (hs : s.Nursery queue) : t.Nursery queue := by
  have registry := hs.registry.deed h.deed
  have catalogued := AllCatalogs.feat (Catalog.hereditary_inOrder _) hs.catalogued h
  have unnamed : ∀ n ∈ queue, t.Unnamed n.id := fun n hn =>
    (hs.unnamed n hn).later (Nat.le_of_eq h.deed.fixed.2.1.symm)
  rcases h.settled with ⟨running, queued, tasks⟩ | ⟨stopped, empty⟩
  · exact ⟨registry, catalogued, hs.once, unnamed, fun run => queued.trans (hs.queued (running ▸ run)),
      fun run n hn => (hs.awaits (running ▸ run) n hn).feat h tasks,
      fun idle => queued.trans (hs.idle (running ▸ idle))⟩
  · have never : ¬t.running = true := Bool.eq_false_iff.mp stopped
    exact ⟨registry, catalogued, hs.once, unnamed, fun run => absurd run never,
      fun run => absurd run never, fun _ => empty⟩

theorem feats (h : Feats s t) (hs : s.Nursery queue) : t.Nursery queue := by
  induction h with
  | refl => exact hs
  | tail _ k ih => exact ih.feat k

theorem aside (h : s.Aside t) (hs : s.Nursery queue) : t.Nursery queue := by
  have registry := hs.registry.deed (.aside h)
  rw [h.rest] at registry ⊢
  exact hs.same registry rfl rfl (Nat.le_refl _) rfl rfl fun _ _ _ => rfl

/-- A clone that comes into a running session waits behind all others. -/
theorem arrives (hs : s.Nursery queue) (h : s.Arrives id t) (registry : t.Registry)
    (catalogued : t.Catalogued) (running : s.running = true) :
    t.Nursery (queue ++ [⟨id, t.startsOf id⟩]) := by
  have other : ∀ n ∈ queue, n.id ≠ id := by
    rintro n hn rfl
    obtain ⟨prototype, named⟩ := h.named
    exact hs.unnamed n hn prototype _ (Nat.lt_succ_self _) named.symm
  have last : ∀ {P : Newcomer → Prop}, (∀ n ∈ queue, P n) → P ⟨id, t.startsOf id⟩ →
      ∀ n ∈ queue ++ [⟨id, t.startsOf id⟩], P n :=
    fun hq hn => List.forall_mem_append.mpr ⟨hq, List.forall_mem_singleton.mpr hn⟩
  refine
    { registry := registry
      catalogued := catalogued
      once := ?_
      unnamed := last (fun n hn => (hs.unnamed n hn).later ?_) ?_
      queued := fun _ => ?_
      awaits := fun _ => last (fun n hn => ?_) (.inr rfl)
      idle := fun idle => ?_ }
  · rw [List.map_append]
    refine List.nodup_append_comm.mp (List.nodup_cons.mpr ⟨fun listed => ?_, hs.once⟩)
    obtain ⟨n, hn, same⟩ := List.mem_map.mp listed
    exact other n hn same
  · rw [h.next]
    exact Nat.le_succ _
  · obtain ⟨prototype, rfl⟩ := h.named
    exact unnamed_cloneName prototype (Nat.le_of_eq h.next.symm)
  · rw [h.queued, if_pos running, List.map_append, ← hs.queued running]
    rfl
  · have kept := h.others n.id (other n hn)
    refine (hs.awaits running n hn).imp kept.trans fun starts => ?_
    rw [← starts, startsOf, startsOf, behaviors, behaviors, kept, h.tasks]
  · rw [h.running, running] at idle
    cases idle

/-- **A clone that is asked for waits behind all others.** -/
theorem request (hs : s.Nursery queue) (source : String) :
    (s.requestClone source).2.Nursery (queue ++ (s.newcomer? source).toList) := by
  have step := s.requestClone_step source
  have registry := hs.registry.clone step
  have catalogued := AllCatalogs.clone hs.catalogued source
  rcases made : s.requestClone source with ⟨e | id, t⟩
  · rw [made] at step registry
    rw [newcomer?_of_error made, Option.toList_none, List.append_nil]
    cases step with
    | refused serial h later =>
      dsimp only at h registry ⊢
      rw [h.rest] at registry ⊢
      exact hs.same registry rfl rfl later rfl rfl fun _ _ _ => rfl
  · rw [made] at step registry catalogued
    have arrives := step.arrives
    cases running : s.running with
    | true =>
      rw [newcomer?_of_ok running made]
      exact hs.arrives arrives registry catalogued running
    | false =>
      rw [newcomer?_of_idle running, Option.toList_none, List.append_nil]
      have never : ¬t.running = true := Bool.eq_false_iff.mp (arrives.running.trans running)
      have queued : t.cloneStarts = s.cloneStarts :=
        arrives.queued.trans (if_neg (Bool.eq_false_iff.mp running))
      exact
        { registry := registry
          catalogued := catalogued
          once := hs.once
          unnamed := fun n hn => (hs.unnamed n hn).later (arrives.next ▸ Nat.le_succ _)
          queued := fun run => absurd run never
          awaits := fun run => absurd run never
          idle := fun _ => queued.trans (hs.idle running) }

end Nursery

/-- A spell leaves the tasks alone, unless the session stops. -/
theorem Spell.tasks {entity : String} {behavior : Nat} (h : Spell entity behavior s l t)
    (running : t.running = true) : s.running = true ∧ t.scheduler = s.scheduler := by
  -- a change that leaves running sessions and their tasks as they were
  have back : ∀ {u v : Session}, (u.running = true → s.running = true ∧ u.scheduler = s.scheduler) →
      Feats u v → v.running = true → s.running = true ∧ v.scheduler = s.scheduler := by
    intro u v hu k
    induction k with
    | refl => exact hu
    | tail _ feat ih =>
      intro run
      rcases feat.settled with ⟨running, -, tasks⟩ | ⟨stopped, -⟩
      · obtain ⟨before, same⟩ := ih (running ▸ run)
        exact ⟨before, tasks.trans same⟩
      · rw [stopped] at run
        cases run
  induction h with
  | start => exact ⟨running, rfl⟩
  | feat _ k ih => exact back ih (.one k) running
  | @moment l u v o _ ho k ih =>
    cases k with
    | @work _ entity behavior w _ => exact back ih (w.feats entity u) running
    | clone source =>
      rw [(u.mute_requestClone source).1] at running
      rw [u.scheduler_requestClone source]
      exact ih running
    | post => exact ih running
    | _ => exact ho.elim

/-- **During a spell the queue grows by the clones that are asked for.** -/
theorem Spell.nursery {entity : String} {behavior : Nat} (h : Spell entity behavior s l t)
    (hs : s.Nursery queue) : t.Nursery (queue ++ l.filterMap Moment.newcomer?) := by
  induction h with
  | start => exact (List.append_nil queue).symm ▸ hs
  | feat _ k ih => exact ih.feat k
  | @moment l u v o _ ho k ih =>
    rw [List.filterMap_append, ← List.append_assoc]
    cases k with
    | @work _ entity behavior w _ =>
      exact (List.append_nil _).symm ▸ ih.feats (w.feats entity u)
    | clone source =>
      rw [Moment.newcomers_cons, List.filterMap_nil, List.append_nil]
      exact ih.request source
    | post => exact (List.append_nil _).symm ▸ Nursery.aside (s := u) ⟨rfl, rfl⟩ ih
    | _ => exact ho.elim

/-! ## Turns -/

/-- A clone has its turn while others wait. -/
structure Turn (s : Session) (id : String) (queue : List Newcomer) : Prop
    extends s.Nursery queue where
  own : s.Unnamed id
  other : id ∉ queue.map Newcomer.id

/-- The first in the queue has its turn. -/
theorem Nursery.turn {rest : List Newcomer} (hs : s.Nursery (n :: rest))
    (running : s.running = true) :
    ({ s with cloneStarts := rest.map Newcomer.id } : Session).Turn n.id rest := by
  obtain ⟨other, once⟩ := List.nodup_cons.mp hs.once
  obtain ⟨own, unnamed⟩ := List.forall_mem_cons.mp hs.unnamed
  exact
    { registry := ⟨hs.registry.stage, hs.registry.catalogs, hs.registry.locals⟩
      catalogued := hs.catalogued.same rfl rfl
      once := once
      unnamed := unnamed
      queued := fun _ => rfl
      awaits := fun _ m hm => hs.awaits running m (List.mem_cons_of_mem n hm)
      idle := fun idle => absurd running (Bool.eq_false_iff.mp idle)
      own := own
      other := other }

/-- A change of what is under way under the id of the clone that has its turn. -/
theorem Turn.schedule (hs : s.Turn id queue) {q : Scheduler}
    (same : ∀ j b, j ≠ id → q.isActive j b = s.scheduler.isActive j b) :
    ({ s with scheduler := q } : Session).Turn id queue where
  toNursery := hs.toNursery.same ⟨hs.registry.stage, hs.registry.catalogs, hs.registry.locals⟩ rfl rfl
    (Nat.le_refl _) rfl rfl fun n hn b => same n.id b fun h =>
      hs.other (List.mem_map.mpr ⟨n, hn, h⟩)
  own := hs.own
  other := hs.other

theorem Turn.spell {entity : String} {behavior : Nat} (hs : s.Turn id queue)
    (h : Spell entity behavior s l t) : t.Turn id (queue ++ l.filterMap Moment.newcomer?) := by
  have numbered := h.trace.numbered
  refine ⟨h.nursery hs.toNursery, hs.own.later numbered.later, ?_⟩
  rw [List.map_append, List.mem_append, not_or]
  exact ⟨hs.other, hs.own.notMem numbered⟩

/-! ## Start scripts -/

theorem Turn.activate (hs : s.Turn id queue) (b : Nat) :
    ({ s with scheduler := s.scheduler.activate id b } : Session).Turn id queue :=
  hs.schedule fun _ _ other =>
    Scheduler.isActive_activate_of_ne s.scheduler fun same => other (Prod.mk.inj same).1

/-- The start script of a clone has been launched, and has been at work. -/
structure Started (s : Session) (id : String) (b : Nat) (queue : List Newcomer) (inside : List Moment)
    (t : Session) : Prop where
  own : ∀ k ∈ inside, k.occasion.Of id b
  turn : t.Turn id (queue ++ inside.filterMap Moment.newcomer?)
  /-- Other scripts of the clone are under way that were so before. -/
  others : t.running = true → ∀ c, c ≠ b → t.scheduler.isActive id c = s.scheduler.isActive id c

namespace Started

variable {b : Nat} {inside : List Moment}

theorem of_spell (hs : s.Turn id queue)
    (h : Spell id b { s with scheduler := s.scheduler.activate id b } inside t) :
    s.Started id b queue inside t where
  own := h.own
  turn := (hs.activate b).spell h
  others running c other := by
    rw [(h.tasks running).2]
    exact Scheduler.isActive_activate_of_ne s.scheduler fun same => other (Prod.mk.inj same).2

theorem paused (h : s.Started id b queue inside t) (task : Task) :
    s.Started id b queue inside
      { t with scheduler := { t.scheduler with waiting := t.scheduler.waiting ++ [task] } } :=
  ⟨h.own, h.turn.schedule fun _ _ _ => rfl, h.others⟩

theorem ended (h : s.Started id b queue inside t) :
    s.Started id b queue inside { t with scheduler := t.scheduler.deactivate id b } where
  own := h.own
  turn := h.turn.schedule fun _ _ other =>
    Scheduler.isActive_deactivate_of_ne t.scheduler fun same => other (Prod.mk.inj same).1
  others running c other := by
    refine Eq.trans ?_ (h.others running c other)
    exact Scheduler.isActive_deactivate_of_ne t.scheduler fun same => other (Prod.mk.inj same).2

/-- What is to be launched after a script has not been launched by it. -/
theorem filter_eq (h : s.Started id b queue inside t) (running : t.running = true)
    {rest : List Behavior} (new : b ∉ rest.map Behavior.id) :
    (rest.filter fun c => !t.scheduler.isActive id c.id)
      = rest.filter fun c => !s.scheduler.isActive id c.id := by
  refine List.filter_congr fun c hc => ?_
  rw [h.others running c.id fun same => new (same ▸ List.mem_map_of_mem hc)]

end Started

/-- Clones that are asked for by a script and by those after it, in one queue. -/
theorem newcomers_launch (queue : List Newcomer) (b : Behavior) (inside l : List Moment) :
    queue ++ (⟨.launch id b, s⟩ :: inside ++ l).filterMap Moment.newcomer?
      = queue ++ inside.filterMap Moment.newcomer? ++ l.filterMap Moment.newcomer? := by
  rw [List.cons_append, List.filterMap_cons_none rfl, List.filterMap_append, List.append_assoc]

/-- A script that has been launched, and those that come after it. -/
theorem Started.debut {b : Behavior} {rest : List Behavior} {inside l : List Moment} {u : Session}
    (h : s.Started id b.id queue inside t) (starts : Play.startsClone b.trigger = true)
    (run : Chronicle.launchWith Chronicle.queueClone id b s
      = (.ok true t, ⟨.launch id b, s⟩ :: inside))
    (new : b.id ∉ rest.map Behavior.id)
    (others : Debut id t (rest.filter fun c => !t.scheduler.isActive id c.id) l u) :
    Debut id s (b :: rest.filter fun c => !s.scheduler.isActive id c.id)
      (⟨.launch id b, s⟩ :: inside ++ l) u := by
  refine .launch starts run h.own ?_
  cases running : t.running with
  | false =>
    obtain ⟨rfl, rfl⟩ := others.of_idle running
    exact .stopped running
  | true => exact h.filter_eq running new ▸ others

end Session

namespace Chronicle

open Session (Debut Drain Nursery Spell Started Turn)

variable {s : Session} {id : String} {queue : List Newcomer}

/-- A behavior that is not launched leaves everything as it is. -/
theorem yields_launch_of_refused {b : Behavior}
    (refused : (!s.running || s.scheduler.isActive id b.id) = true) :
    Yields (discard (launchWith queueClone id b) : Chronicle Unit) s fun _ t l => t = s ∧ l = [] := by
  refine Yields.bind (Q := fun _ t l => t = s ∧ l = [])
    (.of_run (launchWith_of_refused refused) ⟨rfl, rfl⟩) ?_
  rintro _ _ _ ⟨rfl, rfl⟩
  exact .pure ⟨rfl, rfl⟩

/-- **A start script runs whole**, and the clones it asks for wait behind all others. -/
theorem yields_startScript (hs : s.Turn id queue) {b : Behavior} (running : s.running = true)
    (free : s.scheduler.isActive id b.id = false) :
    Yields (launchWith queueClone id b) s fun launched t l => launched = true ∧
      ∃ inside, l = ⟨.launch id b, s⟩ :: inside ∧ s.Started id b.id queue inside t := by
  have go : ¬(!s.running || s.scheduler.isActive id b.id) = true := by
    rw [running, free]
    decide
  rw [launchWith]
  refine .look ?_
  rw [if_neg go]
  refine Yields.bind (Q := fun _ t l =>
    t = { s with scheduler := s.scheduler.activate id b.id } ∧ l = [⟨.launch id b, s⟩])
    (.seen ⟨rfl, rfl⟩) ?_
  rintro _ _ _ ⟨rfl, rfl⟩
  refine ((Spell.slice (Task.new id b)).yields _).bind fun left t l spell => ?_
  have started : s.Started id b.id queue l t := .of_spell hs spell
  have whole : [⟨.launch id b, s⟩] ++ (l ++ []) = (⟨.launch id b, s⟩ :: l : List Moment) := by
    rw [List.append_nil]
    rfl
  cases left with
  | some task =>
    refine Yields.unseen (I := fun u => u = { t with
      scheduler := { t.scheduler with waiting := t.scheduler.waiting ++ [task] } }) rfl ?_
    rintro _ _ rfl
    exact .pure ⟨rfl, l, whole, started.paused task⟩
  | none =>
    refine Yields.unseen (I := fun u => u = { t with
      scheduler := t.scheduler.deactivate id b.id }) rfl ?_
    rintro _ _ rfl
    exact .pure ⟨rfl, l, whole, started.ended⟩

/-- A start script is launched, and it is known which call of it that is. -/
theorem yields_launched (hs : s.Turn id queue) {b : Behavior} (running : s.running = true)
    (free : s.scheduler.isActive id b.id = false) :
    Yields (discard (launchWith queueClone id b) : Chronicle Unit) s fun _ t l =>
      launchWith queueClone id b s = (.ok true t, l) ∧
        ∃ inside, l = ⟨.launch id b, s⟩ :: inside ∧ s.Started id b.id queue inside t := by
  have run : Yields (launchWith queueClone id b) s fun a t l =>
      launchWith queueClone id b s = (.ok a t, l) := fun _ _ ha => Prod.ext ha rfl
  refine (run.and (yields_startScript hs running free)).bind ?_
  rintro _ t l ⟨run, rfl, started⟩
  exact .pure ((List.append_nil l).symm ▸ ⟨run, started⟩)

/-- **A clone at its turn** runs the start scripts of which no instance is under way. -/
theorem yields_debut (bs : List Behavior) (distinct : (bs.map Behavior.id).Nodup)
    (starts : ∀ b ∈ bs, Play.startsClone b.trigger = true) (hs : s.Turn id queue) :
    Yields (bs.forM fun b => discard (launchWith queueClone id b)) s fun _ t l =>
      Debut id s (bs.filter fun b => !s.scheduler.isActive id b.id) l t ∧
        t.Turn id (queue ++ l.filterMap Moment.newcomer?) := by
  induction bs generalizing s queue with
  | nil => exact .pure ⟨.done, (List.append_nil queue).symm ▸ hs⟩
  | cons b rest ih =>
    obtain ⟨new, distinct⟩ := List.nodup_cons.mp distinct
    obtain ⟨first, starts⟩ := List.forall_mem_cons.mp starts
    cases running : s.running with
    | false =>
      refine (yields_launch_of_refused (by rw [running]; rfl)).bind ?_
      rintro _ _ _ ⟨rfl, rfl⟩
      refine (ih distinct starts hs).mono fun _ t l h => ?_
      obtain ⟨rfl, rfl⟩ := h.1.of_idle running
      exact ⟨.stopped running, h.2⟩
    | true =>
      cases free : s.scheduler.isActive id b.id with
      | true =>
        refine (yields_launch_of_refused (by rw [free, Bool.or_true])).bind ?_
        rintro _ _ _ ⟨rfl, rfl⟩
        rw [List.filter_cons_of_neg (by rw [free]; decide)]
        exact ih distinct starts hs
      | false =>
        rw [List.filter_cons_of_pos (by rw [free]; rfl)]
        refine (yields_launched hs running free).bind ?_
        rintro _ t _ ⟨run, inside, rfl, started⟩
        refine (ih distinct starts started.turn).mono fun _ u l h => ?_
        exact ⟨started.debut first run new h.1, Session.newcomers_launch queue b inside l ▸ h.2⟩

/-- An empty queue ends the work. -/
theorem yields_startClones_nil (budget : Nat) (empty : s.cloneStarts = [])
    (drained : Drain queue s [] s) :
    Yields (startClones (budget + 1)) s fun _ t l => Drain queue s l t ∧ t.cloneStarts = [] := by
  refine Yields.bind (Q := fun next t l => next = none ∧ t = s ∧ l = []) (.silent ?_) ?_
  · rw [Play.After, Play.nextCloneStart_nil empty]
    exact ⟨rfl, rfl, rfl⟩
  · rintro _ _ _ ⟨rfl, rfl, rfl⟩
    exact .pure ⟨drained, empty⟩

/-- **The queue is worked off**, within any budget that is not used up. -/
theorem yields_startClones (budget : Nat) (hs : s.Nursery queue) :
    Yields (startClones budget) s fun _ t l => Drain queue s l t ∧ t.cloneStarts = [] := by
  induction budget generalizing s queue with
  | zero => exact .silent trivial
  | succ budget ih =>
    cases running : s.running with
    | false => exact yields_startClones_nil budget (hs.idle running) (.stopped running)
    | true =>
      cases queue with
      | nil => exact yields_startClones_nil budget (hs.queued running) .done
      | cons n rest =>
        let popped : Session := { s with cloneStarts := rest.map Newcomer.id }
        have turn : popped.Turn n.id rest := hs.turn running
        refine Yields.bind (Q := fun next t l => next = some n.id ∧ t = popped ∧ l = [])
          (.silent ?_) ?_
        · rw [Play.After, Play.nextCloneStart_cons (hs.queued running)]
          exact ⟨rfl, rfl, rfl⟩
        rintro _ _ _ ⟨rfl, rfl, rfl⟩
        refine .ask ?_
        rcases hs.awaits running n List.mem_cons_self with gone | starts
        · have nothing : popped.behaviors n.id Play.startsClone = [] := by
            rw [Session.behaviors, show popped.catalogs.get? n.id = none from gone]
          rw [nothing]
          refine Yields.bind (Q := fun _ t l => t = popped ∧ l = []) (.pure ⟨rfl, rfl⟩) ?_
          rintro _ _ _ ⟨rfl, rfl⟩
          exact (ih turn.toNursery).mono fun _ t l h =>
            ⟨.gone (hs.registry.absent_of_catalog gone) h.1, h.2⟩
        · have launched := yields_debut (popped.behaviors n.id Play.startsClone)
            (hs.catalogued.nodup n.id _) (fun b hb => passes_of_mem_behaviors hb) turn
          refine launched.bind fun _ t l h => ?_
          have debut : Session.Debut n.id popped n.starts l t := starts ▸ h.1
          refine (ih h.2.toNursery).mono fun _ u m k => ?_
          have drained : Drain (n :: rest) s (l ++ m) u := .turn debut k.1
          exact ⟨drained, k.2⟩

end Chronicle

end BlockStage
