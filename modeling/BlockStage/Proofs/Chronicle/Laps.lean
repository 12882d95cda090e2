/-
  Laps: each frame runs every looping behavior once.

  1. **Specification (`Session.Laps`)** — the phase goes through those who take part and have a
     looping behavior when it begins (`Session.loopers`), in the order of registration.  Each of them
     has one lap, in which the looping behaviors that are found when the lap begins have a turn each,
     in the order of the catalog.  At its turn a behavior is launched if it is due, and then scripts
     are seen and nothing else; if it is not due nothing happens.

  2. **The crux (`Chronicle.yields_launchEach`)** — launched scripts add loops, make clones, delete and
     stop, so whoever has a turn and which behaviors take turns is settled before: the entities when
     the phase begins, the behaviors when the lap begins.  Whether a behavior is due is decided at
     its turn.

  3. **At most once (`Session.Laps.once`)** — entities have different ids, and a catalog lists every
     identity once however often the statement that adds it is carried out.  So no looping behavior
     is launched twice, and what is added during a lap has no turn in it.
-/
import BlockStage.Proofs.Chronicle.Delivery

namespace BlockStage

open Session (Trace)

/-! ## Who has looping behaviors -/

/-- Every kind that is noted is that of a behavior. -/
def Catalog.Exact (c : Catalog) : Prop :=
  ∀ kind, c.mask.has kind = true → ∃ b ∈ c.behaviors, b.trigger.kind = kind

theorem Catalog.Exact.register {c : Catalog} (hc : c.Exact) (b : Behavior) :
    (c.register b).2.Exact := by
  rw [Catalog.register]
  split
  · exact hc
  · intro kind noted
    rw [EventMask.has_union, Bool.or_eq_true] at noted
    rcases noted with old | new
    · obtain ⟨a, listed, same⟩ := hc kind old
      exact ⟨a, List.mem_append_left _ listed, same⟩
    · refine ⟨b, List.mem_append_right _ List.mem_cons_self, ?_⟩
      exact (EventMask.has_only_iff _ _).mp new

theorem Catalog.hereditary_exact (adds : Behavior → Prop) : Hereditary adds Exact where
  empty kind noted := by cases kind <;> cases noted
  register b _ hc := hc.register b

namespace Session

variable {s t : Session} {id : String} {b : Behavior}

/-- The looping behaviors of an entity. -/
def loops (s : Session) (id : String) : List Behavior := s.behaviors id fun t => t == .forever

/-- Those that take part and have a looping behavior, in the order of registration. -/
def loopers (s : Session) : List String :=
  s.stage.ids.filter fun id => s.isLive id && !(s.loops id).isEmpty

/-- May a behavior be launched now?  The session must be running, the entity take part, and no
    earlier instance be suspended. -/
def due (s : Session) (id : String) (b : Behavior) : Bool :=
  s.running && s.isLive id && !s.waitingKeys.contains (id, b.id)

theorem forever_of_mem_loops (h : b ∈ s.loops id) : b.trigger = .forever :=
  eq_of_beq (Chronicle.passes_of_mem_behaviors h)

/-- Those who listen for the next frame are those who have a looping behavior, since catalogs note
    just the kinds of their behaviors. -/
theorem listeners_forever (exact : s.AllCatalogs Catalog.Exact) (catalogued : s.Catalogued) :
    s.listeners .forever = s.loopers := by
  refine List.filter_congr fun id _ => Bool.eq_iff_iff.mpr ?_
  rw [Bool.and_eq_true, Bool.not_eq_true', List.isEmpty_eq_false_iff]
  constructor
  · intro listening
    rw [listens, Bool.and_eq_true] at listening
    refine ⟨listening.2, ?_⟩
    rw [loops, behaviors]
    cases known : s.catalogs.get? id with
    | none =>
      rw [known] at listening
      cases listening.1
    | some c =>
      rw [known] at listening
      obtain ⟨b, listed, kind⟩ := exact.catalogs id c known .forever listening.1
      refine List.ne_nil_of_mem (List.mem_filter.mpr ⟨listed, ?_⟩)
      exact beq_iff_eq.mpr (Trigger.kind_eq_forever kind)
  · rintro ⟨live, some⟩
    obtain ⟨b, hb⟩ := List.exists_mem_of_ne_nil _ some
    have kind : b.trigger.kind = .forever := congrArg Trigger.kind (forever_of_mem_loops hb)
    exact kind ▸ catalogued.listens hb live

/-! ## The specification -/

/-- Behaviors of one entity have their turns, from one session to another; these moments pass. -/
inductive Stints (id : String) : Session → List Behavior → List Moment → Session → Prop where
  | nil {s : Session} : Stints id s [] [] s
  | passed {s t : Session} {b : Behavior} {rest : List Behavior} {l : List Moment}
    (undue : s.due id b = false) (others : Stints id s rest l t) : Stints id s (b :: rest) l t
  | taken {s t u : Session} {b : Behavior} {rest : List Behavior} {inside l : List Moment}
    (due : s.due id b = true)
    (run : Chronicle.launch id b s = (.ok true t, ⟨.launch id b, s⟩ :: inside))
    (scripted : ∀ k ∈ inside, k.occasion.Scripted) (others : Stints id t rest l u) :
    Stints id s (b :: rest) (⟨.launch id b, s⟩ :: inside ++ l) u

/-- Entities have their laps.  In each lap the looping behaviors that are found when it begins have
    their turns. -/
inductive Laps : Session → List String → List Moment → Session → Prop where
  | nil {s : Session} : Laps s [] [] s
  | lap {s t u : Session} {id : String} {rest : List String} {l m : List Moment}
    (stints : Stints id s (s.loops id) l t) (others : Laps t rest m u) :
    Laps s (id :: rest) (l ++ m) u

end Session

/-- The looping behavior that is launched, by its entity and its identity. -/
def Moment.looped? : Moment → Option (String × Nat)
  | ⟨.launch id b, _⟩ => if b.trigger = .forever then some (id, b.id) else none
  | _ => none

/-- The behavior with a trigger that is launched, by its entity and its identity. -/
def Moment.launched? (trigger : Trigger) : Moment → Option (String × Nat)
  | ⟨.launch id b, _⟩ => if b.trigger = trigger then some (id, b.id) else none
  | _ => none

theorem Moment.launched?_forever : Moment.launched? .forever = Moment.looped? := by
  funext ⟨o, s⟩
  cases o <;> rfl

/-- Scripts launch nothing but start scripts of clones. -/
theorem Moment.unlaunched {trigger : Trigger} (own : Play.startsClone trigger = false)
    {l : List Moment} (h : ∀ k ∈ l, k.occasion.Scripted) :
    l.filterMap (Moment.launched? trigger) = [] := by
  refine List.filterMap_eq_nil_iff.mpr fun k hk => ?_
  have scripted := h _ hk
  obtain ⟨o, s⟩ := k
  cases o with
  | launch id b =>
    have starts : Play.startsClone b.trigger = true := scripted
    refine if_neg fun same => ?_
    rw [same, own] at starts
    cases starts
  | _ => rfl

/-! ## Turns -/

namespace Session

variable {s t : Session} {id : String} {b : Behavior}

/-- What deliveries rely on is there again after a launch. -/
theorem Ready.launched (hs : s.Ready) {a : Bool} {l : List Moment}
    (run : Chronicle.launch id b s = (.ok a t, l)) : t.Ready := by
  have told : Chronicle.Told (fun _ => True) (Chronicle.launch id b) (Play.launch id b) :=
    Chronicle.told_launch (fun _ _ => trivial) trivial
  have after := Session.restores_launchWith Session.restores_makeClone [] id b s hs.ledger
  obtain ⟨ht, trace⟩ := Chronicle.Yields.of_told told after a t (congrArg Prod.fst run)
  exact hs.trace trace ht

theorem Stints.ready {bs : List Behavior} {l : List Moment} (h : Stints id s bs l t)
    (hs : s.Ready) : t.Ready := by
  induction h with
  | nil => exact hs
  | passed _ _ ih => exact ih hs
  | taken _ run _ _ ih => exact ih (hs.launched run)

end Session

namespace Chronicle

open Session (Stints Laps)

variable {s : Session}

/-- What is not due is not launched. -/
theorem launch_of_not_due (hs : s.Ledger false []) {id : String} {b : Behavior}
    (live : s.isLive id = true) (undue : s.due id b = false) :
    launch id b s = (.ok false s, []) := by
  have refused : (!s.running || s.scheduler.isActive id b.id) = true := by
    rw [Session.due, live, Bool.and_true, ← isActive_eq hs, ← Bool.not_eq_true', Bool.not_and,
      Bool.not_not] at undue
    exact undue
  exact launchWith_of_refused refused

/-- What is due is launched, and then scripts are seen. -/
theorem yields_launch_of_due (hs : s.Ledger false []) {id : String} {b : Behavior}
    (due : s.due id b = true) :
    Yields (launch id b) s fun launched _ l => launched = true ∧
      ∃ inside, l = ⟨.launch id b, s⟩ :: inside ∧ ∀ k ∈ inside, k.occasion.Scripted := by
  rw [Session.due, Bool.and_eq_true, Bool.and_eq_true] at due
  refine (yields_launch hs due.1.1 id b).mono fun launched _ l h => ?_
  obtain ⟨-, free, seen⟩ := h
  rw [due.2] at free
  subst free
  exact ⟨rfl, seen⟩

/-- **The turns of one entity's behaviors.** -/
theorem yields_launchEach (id : String) (bs : List Behavior) (hs : s.Ready) :
    Yields (launchEach id bs) s fun _ t l => Stints id s bs l t := by
  induction bs generalizing s with
  | nil => exact .pure .nil
  | cons b rest ih =>
    -- what comes after the turn depends on whether the behavior has been launched only in its count
    have others : ∀ (launched : Bool) {u : Session}, u.Ready →
        Yields (do return (if launched then 1 else 0) + (← launchEach id rest)) u fun _ t l =>
          Stints id u rest l t := by
      intro launched u hu
      refine (ih hu).bind fun n t l h => .pure ?_
      rw [List.append_nil]
      exact h
    refine .ask ?_
    cases live : s.isLive id with
    | false =>
      have undue : s.due id b = false := by
        rw [Session.due, live, Bool.and_false, Bool.false_and]
      refine Yields.bind (Q := fun launched t l => t = s ∧ l = []) (.pure ⟨rfl, rfl⟩) ?_
      rintro launched _ _ ⟨rfl, rfl⟩
      exact (others launched hs).mono fun _ _ _ h => .passed undue h
    | true =>
      cases due : s.due id b with
      | false =>
        have same := launch_of_not_due hs.ledger live due
        refine Yields.bind (Q := fun launched t l => t = s ∧ l = []) (.of_run same ⟨rfl, rfl⟩) ?_
        rintro launched _ _ ⟨rfl, rfl⟩
        exact (others launched hs).mono fun _ _ _ h => .passed due h
      | true =>
        refine Yields.bind (Q := fun launched t l => launch id b s = (.ok launched t, l) ∧
          launched = true ∧ ∃ inside, l = ⟨.launch id b, s⟩ :: inside ∧
            ∀ k ∈ inside, k.occasion.Scripted) ?_ ?_
        · exact fun a t ha => ⟨Prod.ext ha rfl, yields_launch_of_due hs.ledger due a t ha⟩
        · rintro _ t _ ⟨run, rfl, inside, rfl, scripted⟩
          exact (others true (hs.launched run)).mono fun _ _ _ h => .taken due run scripted h

/-- The laps of entities. -/
theorem yields_launchAll (ids : List String) (hs : s.Ready) :
    Yields (launchAll (fun t => t == .forever) ids) s fun _ t l => Laps s ids l t := by
  induction ids generalizing s with
  | nil => exact .pure .nil
  | cons id rest ih =>
    refine .ask ?_
    have lap : Yields (discard (launchEach id (s.loops id)) : Chronicle Unit) s fun _ t l =>
        Stints id s (s.loops id) l t := by
      refine (yields_launchEach id _ hs).bind fun n t l h => .pure ?_
      rw [List.append_nil]
      exact h
    exact lap.bind fun _ t l stints => (ih (stints.ready hs)).mono fun _ _ _ h => .lap stints h

end Chronicle

/-! ## At most once -/

namespace Session

variable {s t : Session} {id : String} {l : List Moment}

/-- What is launched is of those that have turns, in their order. -/
theorem Stints.launched {trigger : Trigger} (own : Play.startsClone trigger = false)
    {bs : List Behavior} (h : Stints id s bs l t) (fits : ∀ b ∈ bs, b.trigger = trigger) :
    (l.filterMap (Moment.launched? trigger)).Sublist (bs.map fun b => (id, b.id)) := by
  induction h with
  | nil => exact .refl _
  | passed _ _ ih => exact (ih fun c hc => fits c (List.mem_cons_of_mem _ hc)).cons _
  | @taken s t u b rest inside l due run scripted others ih =>
    have itself : Moment.launched? trigger ⟨.launch id b, s⟩ = some (id, b.id) :=
      if_pos (fits b List.mem_cons_self)
    rw [List.cons_append, List.filterMap_cons_some itself, List.filterMap_append,
      Moment.unlaunched own scripted, List.nil_append]
    exact (ih fun c hc => fits c (List.mem_cons_of_mem _ hc)).cons_cons _

theorem Stints.looped {bs : List Behavior} (h : Stints id s bs l t)
    (loops : ∀ b ∈ bs, b.trigger = .forever) :
    (l.filterMap Moment.looped?).Sublist (bs.map fun b => (id, b.id)) :=
  Moment.launched?_forever ▸ h.launched rfl loops

/-- Besides those that have turns only scripts are seen. -/
theorem Stints.others {bs : List Behavior} (h : Stints id s bs l t) :
    ∀ k ∈ l, k.occasion.Scripted ∨ ∃ b ∈ bs, k.occasion = .launch id b := by
  induction h with
  | nil => exact fun _ h => (List.not_mem_nil h).elim
  | passed _ _ ih => exact fun k hk => (ih k hk).imp_right fun ⟨b, hb, same⟩ => ⟨b, .tail _ hb, same⟩
  | taken due run scripted others ih =>
    intro k hk
    rcases List.mem_cons.mp hk with rfl | hk
    · exact .inr ⟨_, List.mem_cons_self, rfl⟩
    rcases List.mem_append.mp hk with inside | later
    · exact .inl (scripted k inside)
    · exact (ih k later).imp_right fun ⟨b, hb, same⟩ => ⟨b, .tail _ hb, same⟩

namespace Laps

variable {ids : List String}

/-- **No looping behavior is launched twice**, and only those of the entities that have laps are. -/
theorem once (h : Laps s ids l t) (hs : s.Ready) (different : ids.Nodup) :
    (l.filterMap Moment.looped?).Nodup ∧ ∀ e ∈ l.filterMap Moment.looped?, e.1 ∈ ids := by
  induction h with
  | nil => exact ⟨List.nodup_nil, fun _ h => (List.not_mem_nil h).elim⟩
  | @lap s t u id rest l m stints others ih =>
    obtain ⟨new, different⟩ := List.nodup_cons.mp different
    obtain ⟨later, among⟩ := ih (stints.ready hs) different
    have here := stints.looped fun b hb => forever_of_mem_loops hb
    have own : ∀ e ∈ l.filterMap Moment.looped?, e.1 = id := by
      intro e he
      obtain ⟨b, -, rfl⟩ := List.mem_map.mp (here.subset he)
      rfl
    have listed : ((s.loops id).map fun b => (id, b.id)).Nodup := by
      refine List.Nodup.of_map Prod.snd ?_
      rw [List.map_map]
      exact hs.catalogued.nodup id _
    rw [List.filterMap_append]
    refine ⟨List.nodup_append.mpr ⟨listed.sublist here, later, ?_⟩, fun e he => ?_⟩
    · rintro e he f hf rfl
      exact new (own e he ▸ among e hf)
    · rcases List.mem_append.mp he with he | he
      · exact own e he ▸ List.mem_cons_self
      · exact List.mem_cons_of_mem _ (among e he)

/-- Besides looping behaviors of the entities that have laps only scripts are seen. -/
theorem others (h : Laps s ids l t) :
    ∀ k ∈ l, k.occasion.Scripted ∨
      ∃ id ∈ ids, ∃ b, k.occasion = .launch id b ∧ b.trigger = .forever := by
  induction h with
  | nil => exact fun _ h => (List.not_mem_nil h).elim
  | lap stints others ih =>
    intro k hk
    rcases List.mem_append.mp hk with here | later
    · refine (stints.others k here).imp_right ?_
      rintro ⟨b, hb, same⟩
      exact ⟨_, List.mem_cons_self, b, same, forever_of_mem_loops hb⟩
    · refine (ih k later).imp_right ?_
      rintro ⟨id, listed, found⟩
      exact ⟨id, List.mem_cons_of_mem _ listed, found⟩

end Laps

end Session

/-! ## The beginning of the phase -/

/-- What an update does before looping behaviors run; answers the messages that it has taken. -/
def Play.untilLoops (dt : Float32) : Play (List String) := do
  let dt := Single.max dt 0
  let inbox ← takeInbox
  tick dt
  change fun s => s.stepPhysics dt
  countPhase "physics"
  advanceStart
  resumeAll
  countPhase "tasks"
  return inbox

/-- An update goes on from there with the looping behaviors. -/
theorem Play.updateBy_eq_untilLoops (dt : Float32) :
    Play.updateBy dt =
      (do
        if ← ask Session.running then
          let inbox ← untilLoops dt
          runLoops
          countPhase "forever"
          if ← ask Session.running then deliverTouches
          countPhase "touching"
          if ← ask Session.running then deliverMessages inbox
          countPhase "messages") := by
  simp only [updateBy, untilLoops, bind_assoc, pure_bind]

/-- What an update does before looping behaviors run, watched. -/
def Chronicle.untilLoops (dt : Float32) : Chronicle (List String) := do
  let dt := Single.max dt 0
  let inbox ← seen .update Play.takeInbox
  Play.tick dt
  Play.change fun s => s.stepPhysics dt
  Play.countPhase "physics"
  advanceStart
  resumeAll
  Play.countPhase "tasks"
  return inbox

open Chronicle in
theorem Chronicle.tells_untilLoops (dt : Float32) :
    Tells (fun _ => True) (fun s => s.running = true) (Chronicle.untilLoops dt)
      (Play.untilLoops dt) fun _ _ => True := by
  have hA : ∀ o : Occasion, o.Scripted → True := fun _ _ => trivial
  have hS : ∀ o : Occasion, o.Starting → True := fun _ _ => trivial
  refine Tells.bind (m := fun _ _ => True) (.seen trivial ?_ fun _ _ _ _ _ => trivial)
    fun inbox => ?_
  · exact fun s running => ⟨_, .update running, .refl _⟩
  exact (told_tick _).bind fun _ => (Told.skill (Session.skill_stepPhysics _)).bind fun _ =>
    (told_countPhase _).bind fun _ => (told_advanceStart hA hS).bind fun _ =>
    (told_resumeAll hA).bind fun _ => (told_countPhase _).bind fun _ => .pure _

namespace Session

/-- Nothing is owed when looping behaviors run. -/
theorem restores_untilLoops (dt : Float32) :
    Play.Restores (Ledger false []) (Play.untilLoops dt) := by
  have hP := closed_restores (I := Ledger false []) Ledger.deed
  exact hP.bind hP.takeInbox fun _ => hP.bind ((trying_restores Ledger.deed).tick _) fun _ =>
    hP.bind (hP.stepPhysics _) fun _ => hP.bind (hP.countPhase _) fun _ =>
    hP.bind restores_advanceStart fun _ => hP.bind restores_resumeAll fun _ =>
    hP.bind (hP.countPhase _) fun _ => hP.pure _

/-- A session at the beginning of the phase of looping behaviors, once the start phase is over. -/
inductive AtLoops : Session → Prop where
  | update {s : Session} (dt : Float32) (hs : Reachable s) (running : s.running = true)
    (returns : (Play.untilLoops dt).returns s = true)
    (active : ((Play.untilLoops dt).last s).loopsActive = true) :
    AtLoops ((Play.untilLoops dt).last s)

variable {s : Session}

theorem AtLoops.ready (h : s.AtLoops) : s.Ready := by
  cases h with
  | @update s dt hs running returns active =>
    have trace := (Chronicle.tells_untilLoops dt).trace s running
    obtain ⟨inbox, returned⟩ := Play.eq_of_returns returns
    exact
      { ledger := (restores_untilLoops dt s (ledger_of_reachable hs)).of_eq returned
        registry := stable_registry.trace trace (registry_of_visited hs.visited)
        catalogued := (catalogued_of_visited hs.visited).trace (Catalog.hereditary_inOrder _) trace }

theorem AtLoops.exact (h : s.AtLoops) : s.AllCatalogs Catalog.Exact := by
  cases h with
  | @update s dt hs running returns active =>
    have before : s.AllCatalogs Catalog.Exact := .of_visited (Catalog.hereditary_exact _) hs.visited
    exact before.trace (Catalog.hereditary_exact _)
      ((Chronicle.tells_untilLoops dt).trace s running)

theorem AtLoops.active (h : s.AtLoops) : s.loopsActive = true := by
  cases h with
  | update dt hs running returns active => exact active

/-- What can be said of the phase of looping behaviors. -/
structure Looping (s : Session) : Prop where
  /-- The phase that is watched ends as it does. -/
  same : (Chronicle.runLoops s).1 = Play.runLoops s
  /-- Those who take part and have a looping behavior when the phase begins have their laps. -/
  laps : ∀ t, Play.runLoops s = .ok () t → Laps s s.loopers (Chronicle.runLoops s).2 t
  /-- No looping behavior is launched twice. -/
  once : ∀ t, Play.runLoops s = .ok () t →
    ((Chronicle.runLoops s).2.filterMap Moment.looped?).Nodup
  /-- Nothing else is launched but start scripts of clones. -/
  others : ∀ t, Play.runLoops s = .ok () t → ∀ k ∈ (Chronicle.runLoops s).2, ∀ id b,
    k.occasion = .launch id b →
      Play.startsClone b.trigger = true ∨ b.trigger = .forever ∧ id ∈ s.loopers

/-- **Each frame runs every looping behavior once**, whatever the scripts do meanwhile. -/
theorem looping_of_atLoops (h : s.AtLoops) : s.Looping := by
  have told : Chronicle.Told (fun _ => True) Chronicle.runLoops Play.runLoops :=
    Chronicle.told_runLoops (fun _ _ => trivial) fun _ _ _ => trivial
  have goes : Chronicle.runLoops s = Chronicle.launchAll (fun t => t == .forever) s.loopers s := by
    rw [Chronicle.runLoops, Chronicle.get_bind, if_pos h.active,
      listeners_forever h.exact h.ready.catalogued]
  have laps : ∀ t, Play.runLoops s = .ok () t →
      Laps s s.loopers (Chronicle.runLoops s).2 t := by
    intro t returned
    rw [← told.same, goes] at returned
    rw [goes]
    exact Chronicle.yields_launchAll s.loopers h.ready () t returned
  refine
    { same := told.same s
      laps := laps
      once := fun t returned => ?_
      others := fun t returned k hk id b launched => ?_ }
  · exact ((laps t returned).once h.ready (h.ready.registry.stage.ids.filter _)).1
  · rcases (laps t returned).others k hk with scripted | ⟨j, listed, c, same, loops⟩
    · rw [launched] at scripted
      exact .inl scripted
    · obtain ⟨rfl, rfl⟩ := Occasion.launch.inj (launched.symm.trans same)
      exact .inr ⟨loops, listed⟩

/-- Someone has two looping behaviors: one adds another and makes a clone, and one waits for ever. -/
def carousel : Session :=
  (fresh .usual (Generator.ofSeed 0) 5).after
    [.register (Spawn.new "a"),
      .addBehaviors "a"
        ⟨[⟨0, .forever, [.action (.createClone (.const (.text ""))), .forever 2 []]⟩,
          ⟨1, .forever, [.waitUntil (.const (.bool false))]⟩], [], 3⟩,
      .saveTemplate "a", .script .start, .script (.updateBy 0)]

/-- In the second frame the loop that waits is passed over, and the one that was added in the first
    frame runs.  The clone that was made there has its first lap; the one that is made now has none,
    and neither has the loop that the first clone adds. -/
theorem looping_carousel :
    ((Play.untilLoops 0).last carousel).Looping ∧
      (Chronicle.runLoops ((Play.untilLoops 0).last carousel)).2.filterMap Moment.looped? =
        [("a", 0), ("a", 2), ("a__clone_1", 0), ("a__clone_1", 1)] ∧
      (Play.runLoops.last ((Play.untilLoops 0).last carousel)).loopers =
        ["a", "a__clone_1", "a__clone_2", "a__clone_3"] :=
  ⟨looping_of_atLoops (.update 0 ((Reachable.fresh _ _ _).after _ (by decide +kernel))
    (by decide +kernel) (by decide +kernel) (by decide +kernel)), by decide +kernel,
    by decide +kernel⟩

end Session

end BlockStage
