/-
  Catalogues: whose behaviors are found when.

  1. **The invariant (`Session.Catalogued`)** — a catalog lists every identity once and notes the
     kinds of all its behaviors, so nobody who has a behavior for an event is passed over when the
     event is delivered.  Catalogs are made empty, added to behavior by behavior, and copied; so all
     of them are in order, and so are those in the templates.

  2. **What lasts (`Session.Retains`)** — while scripts run, behaviors leave with their entity and
     come with a clone, and a script adds looping behaviors.  So whoever is still there has the
     behaviors it had, apart from looping ones: handles tell who is still there, since they are given
     out only once.
-/
import BlockStage.Proofs.Chronicle.Faithful
import BlockStage.Proofs.Script.Loops
import BlockStage.Proofs.Session.Catalogs

namespace BlockStage

/-! ## Catalogs -/

/-- Every identity is listed once, and the kinds of all behaviors are noted. -/
structure Catalog.InOrder (c : Catalog) : Prop where
  once : (c.behaviors.map Behavior.id).Nodup
  noted : ∀ b ∈ c.behaviors, c.mask.has b.trigger.kind = true

namespace Catalog

variable {c : Catalog}

theorem inOrder_empty : empty.InOrder := ⟨List.nodup_nil, fun _ h => (List.not_mem_nil h).elim⟩

/-- A behavior is listed last, unless its identity is listed already. -/
theorem InOrder.register (hc : c.InOrder) (b : Behavior) : (c.register b).2.InOrder := by
  rw [Catalog.register]
  split
  · exact hc
  · rename_i new
    refine ⟨?_, fun a ha => ?_⟩
    · rw [List.map_append, List.map_singleton]
      refine List.nodup_append_comm.mp (List.nodup_cons.mpr ⟨fun listed => new ?_, hc.once⟩)
      obtain ⟨a, ha, same⟩ := List.mem_map.mp listed
      exact List.any_eq_true.mpr ⟨a, ha, beq_iff_eq.mpr same⟩
    · rw [EventMask.has_union, Bool.or_eq_true]
      rcases List.mem_append.mp ha with old | last
      · exact .inl (hc.noted a old)
      · obtain rfl := List.mem_singleton.mp last
        exact .inr (EventMask.has_only _)

theorem hereditary_inOrder (adds : Behavior → Prop) : Hereditary adds InOrder :=
  ⟨inOrder_empty, fun b _ hc => hc.register b⟩

end Catalog

namespace Session

variable {s t u : Session} {Q : Catalog → Prop}

/-! ### What all catalogs have is kept -/

namespace AllCatalogs

variable (hQ : Catalog.Hereditary (fun _ => True) Q)
include hQ

theorem feat (hs : s.AllCatalogs Q) (h : Feat s t) : t.AllCatalogs Q := by
  cases h with
  | loop loop body h => exact hs.insert _ (hQ.register _ trivial (hs.catalogs _ _ h))
  | beside h => exact hs.trick (.beside h)
  | stage h => exact hs.trick (.stage h)
  | write id key v => exact hs.trick (.write id key v)
  | delete id => exact hs.trick (.delete id)
  | stop => exact hs.trick .stop

theorem feats (hs : s.AllCatalogs Q) (h : Feats s t) : t.AllCatalogs Q := by
  induction h with
  | refl => exact hs
  | tail _ k ih => exact ih.feat hQ k

theorem change (h : Change s t) (hs : s.AllCatalogs Q) : t.AllCatalogs Q := by
  cases h with
  | feat h => exact hs.feat hQ h
  | _ => exact hs.same rfl rfl

theorem effect {o : Occasion} (h : Effect o s t) (hs : s.AllCatalogs Q) : t.AllCatalogs Q := by
  cases h with
  | plain h => exact hs.plain ⟨hQ.empty, fun b _ => hQ.register b trivial⟩ h
  | @work _ entity behavior w h => exact hs.feats hQ (w.feats entity s)
  | clone source => exact hs.clone source
  | complete h =>
    have same : ({ s with scheduler := { s.scheduler with starting := false } } :
        Session).AllCatalogs Q := hs.same rfl rfl
    exact same.finishStart
  | _ => exact hs.same rfl rfl

theorem trace {A : Occasion → Prop} {l : List Moment} (hs : s.AllCatalogs Q) (h : Trace A s l t) :
    t.AllCatalogs Q := h.keep (change hQ) (fun _ => effect hQ) hs

/-- Between calls all catalogs have it. -/
theorem of_visited (h : Visited s) : s.AllCatalogs Q :=
  visited_keep (fun _ _ _ => .of_empty rfl rfl) (change hQ) (effect hQ) h

end AllCatalogs

/-- All catalogs are in order, also those that clones will get. -/
abbrev Catalogued (s : Session) : Prop := s.AllCatalogs Catalog.InOrder

namespace Catalogued

theorem change (h : Change s t) (hs : s.Catalogued) : t.Catalogued :=
  AllCatalogs.change (Catalog.hereditary_inOrder _) h hs

theorem effect {o : Occasion} (h : Effect o s t) (hs : s.Catalogued) : t.Catalogued :=
  AllCatalogs.effect (Catalog.hereditary_inOrder _) h hs

end Catalogued

/-- Between calls all catalogs are in order. -/
theorem catalogued_of_visited (h : Visited s) : s.Catalogued :=
  .of_visited (Catalog.hereditary_inOrder _) h

/-- Whoever takes part and has a behavior for an event is listening to its kind. -/
theorem Catalogued.listens (hs : s.Catalogued) {id : String} {test : Trigger → Bool} {b : Behavior}
    (hb : b ∈ s.behaviors id test) (live : s.isLive id = true) :
    s.listens b.trigger.kind id = true := by
  rw [behaviors] at hb
  rw [Session.listens]
  cases known : s.catalogs.get? id with
  | none =>
    rw [known] at hb
    exact (List.not_mem_nil hb).elim
  | some c =>
    rw [known] at hb
    have noted := (hs.catalogs id c known).noted b (List.mem_of_mem_filter hb)
    simp only [noted, live, Bool.and_self]

/-- The behaviors of an entity have different identities. -/
theorem Catalogued.nodup (hs : s.Catalogued) (id : String) (test : Trigger → Bool) :
    ((s.behaviors id test).map Behavior.id).Nodup := by
  rw [behaviors]
  split
  · rename_i c known
    exact (List.filter_sublist.map Behavior.id).nodup (hs.catalogs id c known).once
  · exact List.nodup_nil

/-! ## What lasts -/

/-- A looping behavior is found only by a test that looping behaviors pass. -/
theorem behaviors_loop {id : String} {c : Catalog} (loop : Nat) (body : List Stmt)
    (known : s.catalogs.get? id = some c) (j : String) {test : Trigger → Bool}
    (ht : test .forever = false) :
    ({ s with catalogs := s.catalogs.insert id (c.register ⟨loop, .forever, body⟩).2 } :
      Session).behaviors j test = s.behaviors j test := by
  have filtered : (c.register ⟨loop, .forever, body⟩).2.filter test = c.filter test := by
    rw [Catalog.register]
    split
    · rfl
    · rw [Catalog.filter, Catalog.filter, List.filter_append, List.filter_cons_of_neg (by simp [ht]),
        List.filter_nil, List.append_nil]
  rw [behaviors, behaviors, Table.get?_insert]
  by_cases same : (j == id) = true
  · rw [if_pos same, eq_of_beq same, known]
    exact filtered
  · rw [if_neg same]

/-- Whoever is there under an old handle was there before, and has the behaviors it had, but for
    looping ones. -/
structure Retains (s t : Session) : Prop where
  next : s.stage.nextHandle ≤ t.stage.nextHandle
  kept : ∀ id h, t.handle? id = some h → h < s.stage.nextHandle → s.handle? id = some h ∧
    ∀ test : Trigger → Bool, test .forever = false → t.behaviors id test = s.behaviors id test

namespace Retains

theorem refl (s : Session) : s.Retains s := ⟨Nat.le_refl _, fun _ _ h _ => ⟨h, fun _ _ => rfl⟩⟩

theorem trans (h : s.Retains t) (k : t.Retains u) : s.Retains u where
  next := Nat.le_trans h.next k.next
  kept id x hx old := by
    obtain ⟨between, later⟩ := k.kept id x hx (Nat.lt_of_lt_of_le old h.next)
    obtain ⟨before, earlier⟩ := h.kept id x between old
    exact ⟨before, fun test ht => (later test ht).trans (earlier test ht)⟩

/-- Only the cast counts, and the catalogs. -/
theorem same (stage : s.stage.SameCast t.stage) (catalogs : t.catalogs = s.catalogs) :
    s.Retains t := by
  refine ⟨Nat.le_of_eq stage.next.symm, fun id h hh _ => ⟨?_, fun test _ => ?_⟩⟩
  · rw [handle?, stage.find?] at hh
    exact hh
  · rw [behaviors, behaviors, catalogs]

theorem aside (h : s.Aside t) : s.Retains t := by
  rw [h.rest]
  exact same (.refl _) rfl

/-- Behaviors leave with their entity. -/
theorem deleteEntity (order : s.stage.Orderly) (id : String) :
    s.Retains (s.deleteEntity id).2 := by
  rcases deleteEntity_cases order id with ⟨-, same⟩ | ⟨x, stage, gone, left⟩
  · rw [same]
    exact refl s
  · rw [left]
    refine ⟨Nat.le_of_eq gone.next.symm, fun j h hj _ => ?_⟩
    have hj : stage.find? j = some h := hj
    rw [gone.find?] at hj
    split at hj
    · cases hj
    · rename_i other
      have kept : (s.catalogs.erase id).get? j = s.catalogs.get? j := by
        rw [Table.get?_erase, if_neg other]
      refine ⟨hj, fun test _ => ?_⟩
      rw [behaviors, behaviors, ← kept]
      rfl

theorem loop {id : String} {c : Catalog} (loop : Nat) (body : List Stmt)
    (known : s.catalogs.get? id = some c) :
    s.Retains { s with catalogs := s.catalogs.insert id (c.register ⟨loop, .forever, body⟩).2 } :=
  ⟨Nat.le_refl _, fun j _ hj _ => ⟨hj, fun _ ht => behaviors_loop loop body known j ht⟩⟩

theorem feat (h : Feat s t) (order : s.stage.Orderly) : s.Retains t := by
  cases h with
  | beside h => exact aside h.toAside
  | stage h => exact same h.toSameCast rfl
  | write id key v => exact same (.refl _) rfl
  | loop n body h => exact loop n body h
  | delete id => exact deleteEntity order id
  | stop =>
    rw [stopAll]
    split
    · exact refl s
    · exact same (s.stage.sameCast_setAllStopped true) rfl

theorem feats (h : Feats s t) (hs : s.Registry) : s.Retains t := by
  have both : t.Registry ∧ s.Retains t := by
    induction h with
    | refl => exact ⟨hs, refl s⟩
    | tail _ k ih => exact ⟨ih.1.deed k.deed, ih.2.trans (feat k ih.1.stage)⟩
  exact both.2

/-- A clone has a new handle. -/
theorem cloneStep {r : Except SessionError String} (order : s.stage.Orderly)
    (h : CloneStep s r t) : s.Retains t := by
  cases h with
  | refused serial h =>
    have numbered : s.Retains { s with cloneSerial := serial } := same (.refl _) rfl
    exact numbered.trans (aside h)
  | @made _ id prototype template x stage store room known spawned locals rest named =>
    refine Retains.trans ?_ (aside rest)
    have new := Stage.spawned_of_spawn order.fresh spawned
    refine ⟨?_, fun j h hj old => ?_⟩
    · show s.stage.nextHandle ≤ stage.nextHandle
      rw [new.next, new.handle]
      exact Nat.le_succ _
    · have hj : stage.find? j = some h := hj
      rw [new.find?, cloneSpawn_id] at hj
      split at hj
      · rw [← Option.some.inj hj, new.handle] at old
        exact (Nat.lt_irrefl _ old).elim
      · rename_i other
        have kept : (s.catalogs.insert id template.catalog).get? j = s.catalogs.get? j := by
          rw [Table.get?_insert, if_neg other]
        refine ⟨hj, fun test _ => ?_⟩
        rw [behaviors, behaviors, ← kept]

theorem clone (order : s.stage.Orderly) (source : String) :
    s.Retains (s.requestClone source).2 := cloneStep order (s.requestClone_step source)

end Retains

/-- **Whoever is still there has its behaviors still**, however many deliveries and scripts have
    been going on. -/
theorem Trace.retains {l : List Moment} (h : Trace Occasion.Delivering s l t) (hs : s.Registry) :
    s.Retains t := by
  induction h with
  | start => exact .refl s
  | change h k ih =>
    refine ih.trans ?_
    cases k with
    | feat k => exact .feat k (stable_registry.trace h hs).stage
    | _ => exact .same (.refl _) rfl
  | @moment _ t _ _ h ho k ih =>
    refine ih.trans ?_
    have order := stable_registry.trace h hs
    cases k with
    | @work _ entity behavior w => exact .feats (w.feats entity t) order
    | clone source => exact .clone order.stage source
    | call | plain | start | update | opened | parked | fetched | closed | complete =>
      exact ho.elim
    | _ => exact .same (.refl _) rfl

end Session

end BlockStage
