/-
  Births: what becomes of the clones that are made in a call.

  1. **Specification (`Session.Births`)** — a call that has begun is a sequence of moments.  At some
     of them a clone is asked for; then the queue of clones is worked off before anything else is
     done (`Session.Drain`).  At no other moment is a start script of a clone launched.

  2. **The account (`Session.Accounted`)** — so the start scripts that are launched are those of the
     clones, one clone after the other in the order in which they were made, each with its start
     scripts in the order of its catalog.  Somebody is left out only if gone, and the rest is missing
     only if the session has stopped.

  3. **The crux (`Births.quiescent`)** — a request finds the queue empty and leaves it empty.  So a
     request that is not made by a start script at its clone's turn is one step of a call, however
     much is done in it, and a call follows what its steps follow (`Chronicle.Saga.call`).

  4. **What fails (`clones_unpunctual`)** — a start script that has paused goes on like any other
     script: a clone that it asks for starts at once, in the midst of it.  And a launch is refused
     while an instance is suspended, also one that was left under the id of the clone.
-/
import BlockStage.Proofs.Chronicle.Nursery
import BlockStage.Proofs.Session.Settled

namespace BlockStage

open Session (Trace Change Effect Feat)

/-! ## Moments -/

/-- The start script of a clone that is launched at a moment. -/
def Moment.debut? : Moment → Option (String × Behavior)
  | ⟨.launch id b, _⟩ => if Play.startsClone b.trigger then some (id, b) else none
  | _ => none

theorem Moment.debut?_launch {id : String} {b : Behavior} (starts : Play.startsClone b.trigger = true)
    (s : Session) : Moment.debut? ⟨.launch id b, s⟩ = some (id, b) := if_pos starts

/-- A script launches nothing. -/
theorem Occasion.Of.debut? {entity : String} {behavior : Nat} {k : Moment}
    (h : k.occasion.Of entity behavior) : k.debut? = none := by
  obtain ⟨o, s⟩ := k
  cases o with
  | launch => exact h.elim
  | _ => rfl

/-- At an ordinary moment no clone is made and none starts. -/
theorem Occasion.Ordinary.quiet {o : Occasion} (h : o.Ordinary) (s : Session) :
    Moment.newcomer? ⟨o, s⟩ = none ∧ Moment.debut? ⟨o, s⟩ = none := by
  cases o with
  | clone => exact h.elim
  | launch id b =>
    have other : Play.startsClone b.trigger = false := h
    exact ⟨rfl, if_neg (Bool.eq_false_iff.mp other)⟩
  | _ => exact ⟨rfl, rfl⟩

/-- Each start script of a clone that is launched runs until it pauses or ends before anything else
    is done. -/
def Moment.Undisturbed (l : List Moment) : Prop :=
  ∀ before id b s after, l = before ++ ⟨.launch id b, s⟩ :: after →
    Play.startsClone b.trigger = true → ∃ inside rest t, after = inside ++ rest ∧
      Chronicle.launchWith Chronicle.queueClone id b s = (.ok true t, ⟨.launch id b, s⟩ :: inside) ∧
      ∀ k ∈ inside, k.occasion.Of id b.id

namespace Moment.Undisturbed

variable {l m : List Moment}

theorem of_quiet (h : ∀ k ∈ l, k.debut? = none) : Undisturbed l := by
  rintro before id b s after rfl starts
  have none := h ⟨.launch id b, s⟩ (List.mem_append_right _ List.mem_cons_self)
  rw [debut?_launch starts] at none
  cases none

theorem nil : Undisturbed [] := of_quiet fun _ hk => (List.not_mem_nil hk).elim

theorem append (h : Undisturbed l) (k : Undisturbed m) : Undisturbed (l ++ m) := by
  intro before id b s after same starts
  rcases List.append_eq_append_iff.mp same with ⟨front, rfl, rest⟩ | ⟨back, rfl, rest⟩
  · exact k front id b s after rest starts
  · cases back with
    | nil => exact k [] id b s after rest.symm starts
    | cons x back =>
      obtain ⟨rfl, rfl⟩ := List.cons.inj rest
      obtain ⟨inside, others, t, rfl, run, own⟩ := h before id b s back rfl starts
      exact ⟨inside, others ++ m, t, List.append_assoc inside others m, run, own⟩

end Moment.Undisturbed

namespace Session

variable {s t u : Session} {id : String} {n : Newcomer} {l m : List Moment}

/-! ## The specification -/

/-- A change that is not seen and lets nobody wait in the queue of clones. -/
inductive Stir : Session → Session → Prop where
  | feat {s t : Session} (h : Feat s t) : Stir s t
  | tasks {s : Session} (waiting : List Task) (active : List (String × Nat)) :
    Stir s { s with scheduler := { s.scheduler with waiting := waiting, active := active } }
  | idle {s : Session} (h : s.running = false) : Stir s { s with scheduler := .idle }

/-- What passes in a call that has begun: whenever a clone is asked for, the queue is worked off
    before anything else is done.  If no clone is made that is to start, that is no work at all. -/
inductive Births (s : Session) : List Moment → Session → Prop where
  | start : Births s [] s
  | stir {l : List Moment} {t u : Session} (h : Births s l t) (k : Stir t u) : Births s l u
  | moment {l : List Moment} {t u : Session} {o : Occasion} (h : Births s l t) (ho : o.Ordinary)
    (k : Effect o t u) : Births s (l ++ [⟨o, t⟩]) u
  | clone {l m : List Moment} {t u : Session} {source : String} (h : Births s l t)
    (drain : Drain (t.newcomer? source).toList
      { (t.requestClone source).2 with draining := true } m u)
    (empty : u.cloneStarts = []) :
    Births s (l ++ ⟨.clone source, t⟩ :: m) { u with draining := false }

/-- These clones were to start, and these start scripts have been launched: one clone after the
    other, whoever is not gone.  What is missing is missing because the session has stopped. -/
def Accounted (t : Session) (clones : List Newcomer) (launched : List (String × Behavior)) : Prop :=
  ∃ (kept : List Newcomer) (missing : List (String × Behavior)), kept.Sublist clones ∧
    launched ++ missing = kept.flatMap Newcomer.launches ∧
    (missing ≠ [] → t.running = false) ∧ ∀ n ∈ clones, n ∈ kept ∨ t.handle? n.id = none

/-! ## Traces -/

/-- A clone that has its turn leaves a trace. -/
theorem Debut.trace {bs : List Behavior} (h : Debut id s bs l t) : Trace Occasion.Going s l t := by
  induction h with
  | done => exact .start
  | stopped => exact .start
  | @launch s t u b bs inside l starts run own _ ih =>
    have scripted : ∀ o : Occasion, o.Scripted → o.Going := fun _ => Occasion.Scripted.going
    have told : Chronicle.Told Occasion.Going (Chronicle.launchWith Chronicle.queueClone id b)
        (Play.launchWith Play.queueClone id b) :=
      Chronicle.told_launchWith scripted (Chronicle.told_queueClone scripted) trivial
    have first := told.trace s trivial
    have returned : Play.launchWith Play.queueClone id b s = .ok true t :=
      (told.same s).symm.trans (congrArg Prod.fst run)
    rw [run, Play.last_of_ok returned] at first
    exact first.trans ih

/-- So does the work on the queue. -/
theorem Drain.trace {queue : List Newcomer} (h : Drain queue s l t) : Trace Occasion.Going s l t := by
  -- taking the first clone from the queue is not seen
  have taken : ∀ {s : Session} {starts : List String} {l : List Moment} {t : Session},
      Trace Occasion.Going { s with cloneStarts := starts } l t → Trace Occasion.Going s l t :=
    fun {s} _ _ _ k => (Trace.start.change (.queue _ s.draining)).trans k
  induction h with
  | done => exact .start
  | stopped => exact .start
  | gone _ _ ih => exact taken ih
  | turn debut _ ih => exact taken (debut.trace.trans ih)

theorem Stir.change (h : Stir s t) : Change s t := by
  cases h with
  | feat h => exact .feat h
  | tasks waiting active => exact .tasks waiting active
  | idle h => exact .idle h

namespace Births

theorem trans (h : Births s l t) (k : Births t m u) : Births s (l ++ m) u := by
  induction k with
  | start =>
    rw [List.append_nil]
    exact h
  | stir _ stir ih => exact ih.stir stir
  | moment _ ho effect ih =>
    rw [← List.append_assoc]
    exact ih.moment ho effect
  | clone _ drain empty ih =>
    rw [← List.append_assoc]
    exact ih.clone drain empty

/-- From a request until the queue has been worked off. -/
theorem trace_clone {source : String}
    (drain : Drain (t.newcomer? source).toList
      { (t.requestClone source).2 with draining := true } m u) :
    Trace Occasion.Going t (⟨.clone source, t⟩ :: m) { u with draining := false } := by
  have asked : Trace Occasion.Going t [⟨.clone source, t⟩]
      { (t.requestClone source).2 with draining := true } :=
    (Trace.start.moment trivial (.clone source)).change (.queue _ true)
  exact (asked.trans drain.trace).change (.queue _ false)

theorem trace (h : Births s l t) : Trace Occasion.Going s l t := by
  induction h with
  | start => exact .start
  | stir _ k ih => exact ih.change k.change
  | moment _ ho k ih => exact ih.moment ho.going k
  | clone _ drain _ ih => exact ih.trans (trace_clone drain)

end Births

/-! ## The account -/

/-- No session is started once a call has begun. -/
theorem Trace.never_begins (h : Trace Occasion.Going s l t) : ∀ k ∈ l, k.begins = false := by
  rintro ⟨o, u⟩ hk
  have going : o.Going := h.kind _ hk
  cases o with
  | start => exact going.elim
  | _ => rfl

/-- While a session is idle no clone starts. -/
theorem Trace.no_debut (h : Trace Occasion.Going s l t) (idle : s.running = false) :
    l.filterMap Moment.debut? = [] := by
  refine List.filterMap_eq_nil_iff.mpr fun k hk => ?_
  obtain ⟨before, after, rfl⟩ := List.append_of_mem hk
  obtain ⟨first, -, v, effect, -⟩ := h.split
  have still := first.idle first.never_begins idle
  obtain ⟨o, u⟩ := k
  cases effect with
  | launch running => exact absurd running (Bool.eq_false_iff.mp still)
  | _ => rfl

namespace Accounted

variable {clones more : List Newcomer} {launched later : List (String × Behavior)}

theorem nil (t : Session) : t.Accounted [] [] :=
  ⟨[], [], .refl [], rfl, fun h => (h rfl).elim, fun _ h => (List.not_mem_nil h).elim⟩

/-- Whoever is gone has nothing to launch. -/
theorem gone (absent : t.handle? n.id = none) : t.Accounted [n] [] :=
  ⟨[], [], List.nil_sublist _, rfl, fun h => (h rfl).elim,
    List.forall_mem_singleton.mpr (.inr absent)⟩

/-- In an idle session all may be missing. -/
theorem stopped (idle : t.running = false) (clones : List Newcomer) : t.Accounted clones [] :=
  ⟨clones, clones.flatMap Newcomer.launches, .refl clones, rfl, fun _ => idle, fun _ => .inl⟩

/-- Accounts of what has passed one after the other are put together. -/
theorem append (h : t.Accounted clones launched) (k : u.Accounted more later)
    (idle : t.running = false → u.running = false ∧ later = [])
    (gone : ∀ n ∈ clones, t.handle? n.id = none → u.handle? n.id = none) :
    u.Accounted (clones ++ more) (launched ++ later) := by
  obtain ⟨kept, missing, among, order, stopped, absent⟩ := h
  obtain ⟨kept', missing', among', order', stopped', absent'⟩ := k
  refine ⟨kept ++ kept', missing ++ missing', among.append among', ?_, fun left => ?_, ?_⟩
  · rw [List.flatMap_append, ← order, ← order', List.append_assoc, List.append_assoc]
    -- what is missing comes last, since nothing is launched once the session has stopped
    rcases eq_or_ne missing [] with rfl | left
    · rfl
    · rw [(idle (stopped left)).2]
      rfl
  · rcases eq_or_ne missing [] with rfl | some
    · exact stopped' left
    · exact (idle (stopped some)).1
  · refine List.forall_mem_append.mpr ⟨fun n hn => ?_, fun n hn => ?_⟩
    · exact (absent n hn).imp (List.mem_append_left _) (gone n hn)
    · exact (absent' n hn).imp_left (List.mem_append_right _)

/-- The account goes on along a trace: whoever is gone stays away, and an idle session stays idle. -/
theorem going (h : t.Accounted clones launched) (registry : t.Registry)
    (unnamed : ∀ n ∈ clones, t.Unnamed n.id) (trace : Trace Occasion.Going t m u)
    (k : u.Accounted more (m.filterMap Moment.debut?)) :
    u.Accounted (clones ++ more) (launched ++ m.filterMap Moment.debut?) := by
  refine h.append k (fun stopped => ⟨trace.idle trace.never_begins stopped, trace.no_debut stopped⟩)
    fun n hn absent => ?_
  have vacant : t.Vacant n.id := ⟨registry, absent, unnamed n hn⟩
  exact ((stable_vacant n.id).going trace vacant).absent

end Accounted

/-- At its turn a clone launches its start scripts in order, unless the session stops. -/
theorem Debut.accounted {bs : List Behavior} (h : Debut id s bs l t) :
    t.Accounted [⟨id, bs⟩] (l.filterMap Moment.debut?) := by
  have launches : ∃ missing, l.filterMap Moment.debut? ++ missing = bs.map (fun b => (id, b)) ∧
      (missing ≠ [] → t.running = false) := by
    induction h with
    | done => exact ⟨[], rfl, fun h => (h rfl).elim⟩
    | stopped idle => exact ⟨_, rfl, fun _ => idle⟩
    | @launch s t u b bs inside l starts run own _ ih =>
      obtain ⟨missing, order, stopped⟩ := ih
      refine ⟨missing, ?_, stopped⟩
      have only : inside.filterMap Moment.debut? = [] :=
        List.filterMap_eq_nil_iff.mpr fun k hk => (own k hk).debut?
      rw [List.cons_append, List.filterMap_cons_some (Moment.debut?_launch starts s),
        List.filterMap_append, only, List.nil_append, List.cons_append, order]
      rfl
  obtain ⟨missing, order, stopped⟩ := launches
  refine ⟨[⟨id, bs⟩], missing, .refl _, ?_, stopped, fun _ => .inl⟩
  rw [List.flatMap_singleton]
  exact order

/-- **Working off the queue**: all that wait and all that come meanwhile have their turns in order. -/
theorem Drain.accounted {queue : List Newcomer} (h : Drain queue s l t) (registry : s.Registry)
    (unnamed : ∀ n ∈ queue, s.Unnamed n.id) :
    t.Accounted (queue ++ l.filterMap Moment.newcomer?) (l.filterMap Moment.debut?) := by
  have taken : ∀ {s : Session} (starts : List String), s.Registry →
      ({ s with cloneStarts := starts } : Session).Registry :=
    fun {s} starts hs => stable_registry.queue s starts s.draining hs
  induction h with
  | done => exact .nil _
  | @stopped s queue idle => exact .stopped idle _
  | @gone s t n rest l absent others ih =>
    obtain ⟨own, unnamed⟩ := List.forall_mem_cons.mp unnamed
    have registry := taken (rest.map Newcomer.id) registry
    have left : ({ s with cloneStarts := rest.map Newcomer.id } : Session).Accounted [n] [] :=
      .gone absent
    exact left.going registry (List.forall_mem_singleton.mpr own) others.trace
      (ih registry unnamed)
  | @turn s t u n rest l m debut others ih =>
    obtain ⟨own, unnamed⟩ := List.forall_mem_cons.mp unnamed
    have registry := stable_registry.trace debut.trace (taken (rest.map Newcomer.id) registry)
    -- nobody else gets the id of one of those that wait, before the turn or after
    have numbered := debut.trace.numbered
    have come : ∀ j ∈ l.filterMap Moment.newcomer?, t.Unnamed j.id := fun j hj =>
      numbered.unnamed j.id (List.mem_map_of_mem hj)
    have wait : ∀ j ∈ rest, t.Unnamed j.id := fun j hj => (unnamed j hj).later numbered.later
    have whole := debut.accounted.going registry
      (List.forall_mem_singleton.mpr (own.later numbered.later)) others.trace
      (ih registry (List.forall_mem_append.mpr ⟨wait, come⟩))
    rw [List.append_assoc, List.singleton_append] at whole
    rw [List.filterMap_append, List.filterMap_append]
    exact whole

/-- **What passes in a call is accounted for**, from one request to the next. -/
theorem Births.accounted (h : Births s l t) (registry : s.Registry) :
    t.Accounted (l.filterMap Moment.newcomer?) (l.filterMap Moment.debut?) := by
  -- the account of what has passed goes on with that of what passes next
  have next : ∀ {l m : List Moment} {t u : Session}, Births s l t →
      t.Accounted (l.filterMap Moment.newcomer?) (l.filterMap Moment.debut?) →
      Trace Occasion.Going t m u →
      u.Accounted (m.filterMap Moment.newcomer?) (m.filterMap Moment.debut?) →
      u.Accounted ((l ++ m).filterMap Moment.newcomer?) ((l ++ m).filterMap Moment.debut?) := by
    intro l m t u h before trace after
    have numbered := h.trace.numbered
    rw [List.filterMap_append, List.filterMap_append]
    exact before.going (stable_registry.trace h.trace registry)
      (fun n hn => numbered.unnamed n.id (List.mem_map_of_mem hn)) trace after
  induction h with
  | start => exact .nil s
  | @stir l t u h k ih =>
    have whole := next h ih (Trace.start.change k.change) (.nil u)
    rw [List.append_nil] at whole
    exact whole
  | @moment l t u o h ho k ih =>
    refine next h ih (Trace.start.moment (l := []) ho.going k) ?_
    obtain ⟨made, launched⟩ := ho.quiet t
    rw [List.filterMap_cons_none made, List.filterMap_cons_none launched]
    exact .nil u
  | @clone l m t u source h drain empty ih =>
    refine next h ih (trace_clone drain) ?_
    have asked : Trace Occasion.Going t [⟨.clone source, t⟩] (t.requestClone source).2 :=
      Trace.start.moment (l := []) trivial (.clone source)
    have numbered := (Numbered.refl t).newcomer source
    rw [Moment.newcomers_cons, List.filterMap_cons_none rfl]
    refine drain.accounted ?_ fun n hn => numbered.unnamed n.id (List.mem_map_of_mem hn)
    exact stable_registry.queue _ _ true (stable_registry.trace (h.trace.trans asked) registry)

/-! ## Once -/

/-- **A clone that is still there has launched all its start scripts**, one after the other, if the
    session still runs. -/
theorem Accounted.launches {clones : List Newcomer} {launched : List (String × Behavior)}
    (h : t.Accounted clones launched) (running : t.running = true) (hn : n ∈ clones)
    (there : t.handle? n.id ≠ none) : n.launches <:+: launched := by
  obtain ⟨kept, missing, -, order, stopped, absent⟩ := h
  have listed : n ∈ kept := (absent n hn).resolve_right there
  have complete : missing = [] := by
    by_contra left
    exact Bool.eq_false_iff.mp (stopped left) running
  obtain ⟨before, after, rfl⟩ := List.append_of_mem listed
  rw [complete, List.append_nil, List.flatMap_append, List.flatMap_cons] at order
  refine ⟨before.flatMap Newcomer.launches, after.flatMap Newcomer.launches, ?_⟩
  rw [order, List.append_assoc]

/-- No clone has two start scripts of one identity. -/
theorem Trace.distinct_starts {A : Occasion → Prop} (h : Trace A s l t) (hs : s.Catalogued) :
    ∀ n ∈ l.filterMap Moment.newcomer?, (n.starts.map Behavior.id).Nodup := by
  intro n hn
  obtain ⟨⟨o, u⟩, hk, found⟩ := List.mem_filterMap.mp hn
  obtain ⟨before, after, rfl⟩ := List.append_of_mem hk
  obtain ⟨first, -, v, effect, -⟩ := h.split
  cases effect with
  | clone source =>
    have found : u.newcomer? source = some n := found
    have made : (u.requestClone source).2.Catalogued :=
      AllCatalogs.clone (hs.trace (Catalog.hereditary_inOrder _) first) source
    rw [newcomer?] at found
    split at found
    · rename_i id v running request
      obtain rfl := Option.some.inj found
      rw [request] at made
      exact (made.nodup id Play.startsClone).sublist (List.filter_sublist.map _)
    · cases found
  | _ => cases found

/-- **No start script is launched twice** if the clones are different. -/
theorem Accounted.once {clones : List Newcomer} {launched : List (String × Behavior)}
    (h : t.Accounted clones launched) (different : (clones.map Newcomer.id).Nodup)
    (distinct : ∀ n ∈ clones, (n.starts.map Behavior.id).Nodup) :
    (launched.map Phase.key).Nodup := by
  obtain ⟨kept, missing, among, order, -, -⟩ := h
  have whole : ((kept.flatMap Newcomer.launches).map Phase.key).Nodup := by
    rw [List.map_flatMap, List.nodup_flatMap]
    refine ⟨fun n hn => ?_, ?_⟩
    · refine List.Nodup.of_map Prod.snd ?_
      rw [Newcomer.launches, List.map_map, List.map_map]
      exact distinct n (among.subset hn)
    · -- the keys of two clones differ in the id
      have others := List.pairwise_map.mp (different.sublist (among.map Newcomer.id))
      refine others.imp fun {n j} other k hn hj => other ?_
      obtain ⟨e, he, rfl⟩ := List.mem_map.mp hn
      obtain ⟨f, hf, same⟩ := List.mem_map.mp hj
      obtain ⟨b, -, rfl⟩ := List.mem_map.mp he
      obtain ⟨c, -, rfl⟩ := List.mem_map.mp hf
      exact (congrArg Prod.fst same).symm
  rw [← order, List.map_append] at whole
  exact whole.sublist (List.sublist_append_left _ _)

/-! ## Undisturbed -/

theorem Debut.undisturbed {bs : List Behavior} (h : Debut id s bs l t) :
    Moment.Undisturbed l := by
  induction h with
  | done => exact .nil
  | stopped => exact .nil
  | @launch s t u b bs inside l starts run own _ ih =>
    refine Moment.Undisturbed.append ?_ ih
    intro before j c v after same launched
    cases before with
    | nil =>
      obtain ⟨first, rfl⟩ := List.cons.inj same
      obtain ⟨launch, rfl⟩ := Moment.mk.inj first
      obtain ⟨rfl, rfl⟩ := Occasion.launch.inj launch
      exact ⟨inside, [], t, (List.append_nil inside).symm, run, own⟩
    | cons x before =>
      -- in the midst of a start script nothing is launched
      have midst : (⟨.launch j c, v⟩ : Moment) ∈ inside := by
        rw [(List.cons.inj same).2]
        exact List.mem_append_right _ List.mem_cons_self
      exact (own _ midst).elim

theorem Drain.undisturbed {queue : List Newcomer} (h : Drain queue s l t) :
    Moment.Undisturbed l := by
  induction h with
  | done => exact .nil
  | stopped => exact .nil
  | gone _ _ ih => exact ih
  | turn debut _ ih => exact debut.undisturbed.append ih

theorem Births.undisturbed (h : Births s l t) : Moment.Undisturbed l := by
  have quiet : ∀ {k : Moment}, k.debut? = none → Moment.Undisturbed [k] :=
    fun none => .of_quiet (List.forall_mem_singleton.mpr none)
  induction h with
  | start => exact .nil
  | stir _ _ ih => exact ih
  | @moment l t u o _ ho _ ih => exact ih.append (quiet (ho.quiet t).2)
  | @clone l m t u source _ drain _ ih =>
    have asked : Moment.Undisturbed [⟨.clone source, t⟩] := quiet rfl
    exact ih.append (asked.append drain.undisturbed)

/-! ## Quiescence -/

/-- Nobody waits in the queue of clones, and nobody is working it off. -/
structure Quiescent (s : Session) : Prop where
  registry : s.Registry
  catalogued : s.Catalogued
  empty : s.cloneStarts = []
  free : s.draining = false

/-- Between calls nobody waits. -/
theorem quiescent_of_reachable (h : Reachable s) : s.Quiescent where
  registry := registry_of_visited h.visited
  catalogued := catalogued_of_visited h.visited
  empty := (ledger_of_reachable h).none rfl
  free := (ledger_of_reachable h).drains

theorem Quiescent.begun (hs : s.Quiescent) : s.begun.Quiescent where
  registry := stable_registry.upkeep s.upkeep_begun hs.registry
  catalogued := hs.catalogued.same rfl rfl
  empty := hs.empty
  free := hs.free

/-- What is not a request leaves the queue empty. -/
theorem Effect.queue {o : Occasion} (h : Effect o s t) (ho : o.Ordinary)
    (empty : s.cloneStarts = []) : t.cloneStarts = [] ∧ t.draining = s.draining := by
  cases h with
  | call | plain | start | clone => exact ho.elim
  | @work _ entity behavior w _ =>
    refine (w.feats entity s).deeds.keep
      (I := fun u => u.cloneStarts = [] ∧ u.draining = s.draining) (fun u v k same => ?_) ⟨empty, rfl⟩
    exact ⟨k.cloneStarts same.1, k.queue.1.trans same.2⟩
  | complete _ =>
    rw [(upkeep_finishStart _).rest]
    exact ⟨empty, rfl⟩
  | _ => exact ⟨empty, rfl⟩

/-- **Whenever the queue has been worked off, nobody waits.** -/
theorem Births.quiescent (h : Births s l t) (hs : s.Quiescent) : t.Quiescent := by
  have queue : t.cloneStarts = [] ∧ t.draining = false := by
    induction h with
    | start => exact ⟨hs.empty, hs.free⟩
    | stir _ k ih =>
      cases k with
      | feat k => exact ⟨k.deed.cloneStarts ih.1, k.deed.queue.1.trans ih.2⟩
      | _ => exact ih
    | moment _ ho k ih =>
      obtain ⟨empty, same⟩ := k.queue ho ih.1
      exact ⟨empty, same.trans ih.2⟩
    | clone _ _ empty _ => exact ⟨empty, rfl⟩
  exact ⟨stable_registry.trace h.trace hs.registry,
    hs.catalogued.trace (Catalog.hereditary_inOrder _) h.trace, queue.1, queue.2⟩

/-! ## The theorem -/

/-- What can be said of the clones that are made in a call once it has begun. -/
structure Punctual (s : Session) (l : List Moment) (t : Session) : Prop where
  /-- After each request the queue is worked off before anything else is done. -/
  births : Births s l t
  /-- The start scripts of all clones are launched in order, unless a clone is gone or the session
      has stopped. -/
  order : t.Accounted (l.filterMap Moment.newcomer?) (l.filterMap Moment.debut?)
  /-- A clone that is still there has launched all of its own, if the session still runs. -/
  each : t.running = true → ∀ n ∈ l.filterMap Moment.newcomer?, t.handle? n.id ≠ none →
    n.launches <:+: l.filterMap Moment.debut?
  /-- None is launched twice. -/
  once : ((l.filterMap Moment.debut?).map Phase.key).Nodup
  /-- None is launched in the midst of another. -/
  undisturbed : Moment.Undisturbed l
  /-- Nobody is left in the queue. -/
  empty : t.cloneStarts = []

theorem Births.punctual (h : Births s l t) (hs : s.Quiescent) : s.Punctual l t where
  births := h
  order := h.accounted hs.registry
  each running _ hn there := (h.accounted hs.registry).launches running hn there
  once := (h.accounted hs.registry).once h.trace.numbered.distinct
    (h.trace.distinct_starts hs.catalogued)
  undisturbed := h.undisturbed
  empty := (h.quiescent hs).empty

/-- If nobody waits, the queue is empty. -/
theorem Nursery.empty (hs : s.Nursery []) : s.cloneStarts = [] := by
  cases running : s.running with
  | true => exact hs.queued running
  | false => exact hs.idle running

theorem Quiescent.nursery (hs : s.Quiescent) : s.Nursery [] where
  registry := hs.registry
  catalogued := hs.catalogued
  once := List.nodup_nil
  unnamed _ h := (List.not_mem_nil h).elim
  queued _ := hs.empty
  awaits _ _ h := (List.not_mem_nil h).elim
  idle _ := hs.empty

/-- A request that makes no clone that is to start is all that is seen. -/
theorem Quiescent.births_request (hs : s.Quiescent) {source : String}
    (none : s.newcomer? source = Option.none) :
    Births s [⟨.clone source, s⟩] (s.requestClone source).2 := by
  have nobody : (s.requestClone source).2.Nursery [] := by
    have asked := hs.nursery.request source
    rw [none] at asked
    exact asked
  have drain : Drain (s.newcomer? source).toList
      { (s.requestClone source).2 with draining := true } []
      { (s.requestClone source).2 with draining := true } := none ▸ .done
  have whole := Births.start.clone drain nobody.empty
  have free := (s.requestClone_step source).fixed.2.2.1.trans hs.free
  have same : ({ (s.requestClone source).2 with draining := false } : Session)
      = (s.requestClone source).2 := by rw [← free]
  exact same ▸ whole

end Session

namespace Chronicle

open Session (Births Drain Quiescent)

variable {s : Session}

/-- **A clone that is asked for starts before anything else is done.** -/
theorem yields_createClone (hs : s.Quiescent) (source : String) :
    Yields (createClone source) s fun _ t l => Births s l t := by
  refine Yields.bind (Q := fun r t l => r = (s.requestClone source).1 ∧
    t = (s.requestClone source).2 ∧ l = [⟨.clone source, s⟩]) (.seen ⟨rfl, rfl, rfl⟩) ?_
  rintro _ _ _ ⟨rfl, rfl, rfl⟩
  cases made : (s.requestClone source).1 with
  | error e =>
    exact .pure (hs.births_request (Session.newcomer?_of_error (Prod.ext made rfl)))
  | ok id =>
    have same : (s.requestClone source).2.running = s.running := (s.mute_requestClone source).1
    have free := (s.requestClone_step source).fixed.2.2.1.trans hs.free
    refine Yields.bind (Q := fun _ t l => Births s (⟨.clone source, s⟩ :: l) t) (.look ?_)
      fun _ t l h => .pure ((List.append_nil l).symm ▸ h)
    cases running : s.running with
    | false =>
      rw [if_neg (by rw [same, running, Bool.false_and]; decide)]
      exact .pure (hs.births_request (Session.newcomer?_of_idle running))
    | true =>
      rw [if_pos (by rw [same, running, free]; decide)]
      refine .unseen (I := fun t => t = { (s.requestClone source).2 with draining := true }) rfl ?_
      rintro _ _ rfl
      have nursery : ({ (s.requestClone source).2 with draining := true } : Session).Nursery
          (s.newcomer? source).toList := by
        have asked := hs.nursery.request source
        exact asked.same (Session.stable_registry.queue _ _ true asked.registry) rfl rfl
          (Nat.le_refl _) rfl rfl fun _ _ _ => rfl
      refine (yields_startClones _ nursery).bind fun _ t l h => .silent ?_
      exact (List.append_nil l).symm ▸ Births.start.clone h.1 h.2

/-- A request from within a call passes as it should if it finds nobody waiting. -/
theorem obeys_createClone (source : String) :
    Obeys (fun s l t => s.Quiescent → Births s l t) (createClone source) :=
  fun _ _ a t ha => ⟨fun hs => yields_createClone hs source a t ha, trivial⟩

theorem saga_births : Saga fun s l t => s.Quiescent → Births s l t where
  start _ _ := .start
  trans h k hs := (h hs).trans (k ((h hs).quiescent hs))
  feat h _ := .stir .start (.feat h)
  moment ho h _ := .moment .start ho h
  tasks _ waiting active _ := .stir .start (.tasks waiting active)
  idle _ idle _ := .stir .start (.idle idle)

end Chronicle

namespace Session

variable {s t : Session}

/-- **Clones start at once**: whatever is done in a call, the clones that are made in it start before
    it returns, one after the other. -/
theorem punctual_of_reachable (hs : Reachable s) {c : Call} (returns : c.run s = .ok () t) :
    (c.watched s).1 = .ok () t ∧ ∃ front u l, (c.watched s).2 = front ++ l ∧ c.Opens s front u ∧
      u.Punctual l t := by
  have returned : (c.watched s).1 = .ok () t := (c.told.same s).trans returns
  obtain ⟨front, u, l, moments, opens, births⟩ :=
    Chronicle.saga_births.call Chronicle.obeys_createClone c s () t returned
  have quiescent : u.Quiescent := by
    cases opens with
    | call => exact quiescent_of_reachable hs
    | plain =>
      rw [Play.last_of_ok returns]
      exact quiescent_of_reachable (hs.call c returns)
    | start => exact (quiescent_of_reachable hs).begun
  exact ⟨returned, front, u, l, moments, opens, (births quiescent).punctual quiescent⟩

/-- Someone has two start scripts as a clone, and the first of them asks for a clone of someone else,
    who has one. -/
def hatchery : Session :=
  (fresh .usual (Generator.ofSeed 0) 5).after
    [.register (Spawn.new "a"), .register (Spawn.new "b"),
      .addBehaviors "a" ⟨[⟨0, .cloneStart, [.action (.createClone (.const (.text "b")))]⟩,
        ⟨1, .cloneStart, [.action .nextCostume]⟩], [], 2⟩,
      .addBehaviors "b" ⟨[⟨0, .cloneStart, [.action .nextCostume]⟩], [], 1⟩,
      .saveTemplate "a", .saveTemplate "b", .script .start]

/-- The clone of the other one has its turn after both start scripts of the first clone. -/
theorem punctual_hatchery :
    ((Call.script (.createClone "a")).watched hatchery).1
        = .ok () ((Call.script (.createClone "a")).run.last hatchery) ∧
      (∃ front u l, ((Call.script (.createClone "a")).watched hatchery).2 = front ++ l ∧
        (Call.script (.createClone "a")).Opens hatchery front u ∧
        u.Punctual l ((Call.script (.createClone "a")).run.last hatchery)) ∧
      (((Call.script (.createClone "a")).watched hatchery).2.filterMap Moment.debut?).map Phase.key
        = [("a__clone_1", 0), ("a__clone_1", 1), ("b__clone_2", 0)] := by
  have reachable : Reachable hatchery := (Reachable.fresh _ _ _).after _ (by decide +kernel)
  obtain ⟨_, returned⟩ := Play.eq_of_returns (p := (Call.script (.createClone "a")).run)
    (s := hatchery) (by decide +kernel)
  obtain ⟨same, punctual⟩ := punctual_of_reachable reachable returned
  exact ⟨same, punctual, by decide +kernel⟩

/-- While a start script of a clone that has paused goes on, no other clone starts. -/
def Unnested (s : Session) : Prop :=
  ∀ t ∈ s.scheduler.waiting,
    t.behavior ∈ (s.behaviors t.entity Play.startsClone).map Behavior.id →
      ((Chronicle.resume t s).2.filterMap Moment.debut?).map Phase.key = []

/-- A clone that is made at the request of the host, and is there when the call returns, has launched
    all start scripts of its catalog. -/
def Unhindered (s : Session) (source : String) : Prop :=
  ∀ t, (Call.script (.createClone source)).run s = .ok () t → t.running = true →
    ∀ id ∈ t.stage.ids, id ∉ s.stage.ids →
      ∀ b ∈ (t.behaviors id Play.startsClone).map Behavior.id,
        (id, b) ∈ (((Call.script (.createClone source)).watched s).2.filterMap
          Moment.debut?).map Phase.key

/-- Each clone waits for a key and then asks for another clone; one of them waits, and the key has
    been pressed. -/
def brooding : Session :=
  (fresh { Config.usual with cloneLimit := 2 } (Generator.ofSeed 0) 5).after
    [.register (Spawn.new "a"),
      .addBehaviors "a" ⟨[⟨0, .cloneStart, [.waitUntil (.keyHeld (.named .space)),
        .action (.createClone (.const (.text "")))]⟩], [], 1⟩,
      .saveTemplate "a", .script .start, .script (.createClone "a"), .script (.keyDown "space")]

/-- The host has put someone under the id of the next clone, who has left while a script of the
    identity of the clone's start script was suspended. -/
def squatting : Session :=
  (fresh .usual (Generator.ofSeed 0) 5).after
    [.register (Spawn.new "a"), .addBehaviors "a" ⟨[⟨0, .cloneStart, []⟩], [], 1⟩,
      .saveTemplate "a", .register (Spawn.new "a__clone_1"),
      .addBehaviors "a__clone_1"
        ⟨[⟨0, .key (.named .space), [.waitUntil (.const (.bool false))]⟩], [], 1⟩,
      .script .start, .script (.keyDown "space"), .entity "a__clone_1" .delete]

/-- **Not every clone starts like that**: one that is asked for by a start script that has paused
    starts in the midst of it, and one whose start script has its identity in common with a script
    that is suspended under its id does not run it. -/
theorem clones_unpunctual :
    (Reachable brooding ∧ brooding.running = true ∧ ¬brooding.Unnested) ∧
      Reachable squatting ∧ squatting.running = true ∧ ¬squatting.Unhindered "a" := by
  refine ⟨⟨(Reachable.fresh _ _ _).after _ (by decide +kernel), by decide +kernel, ?_⟩,
    (Reachable.fresh _ _ _).after _ (by decide +kernel), by decide +kernel, fun unhindered => ?_⟩
  · rw [Unnested]
    decide +kernel
  · obtain ⟨_, returned⟩ := Play.eq_of_returns (p := (Call.script (.createClone "a")).run)
      (s := squatting) (by decide +kernel)
    have launched := unhindered _ returned (by decide +kernel) "a__clone_1" (by decide +kernel)
      (by decide +kernel) 0 (by decide +kernel)
    revert launched
    decide +kernel

end Session

end BlockStage
