/-
  Links: whoever has a parent is one of its children, and physics knows whose body is whose.

  1. **Specification (`Stage.Consistent`)** — each link has just one back link, links lead from live
     actors to live actors, and the owners of colliders are, in some order, the actors with bodies.

  2. **The invariant (`Stage.Tied`)** — links have their back links (`Linked`), and the register of
     solids agrees with the keys that the actors' bodies hold (`Solids.Charted`).  That nobody is
     linked to an actor that is gone follows, since an actor that is gone has no children.

  3. **The crux** — leaving the stage takes two lists to pieces: the actor's children are detached one
     by one, each from a list that is being read, and then the actor itself, so it goes without
     parent, children and body (`Linked.foldl_detach`, `Charted.depart`).

  4. **Runs** — every operation keeps the invariant (`Tied.apply`), whatever handles it is given, so it
     holds after every run (`consistent_of_perform`).
-/
import BlockStage.Proofs.Stage.Forest
import BlockStage.Proofs.Stage.Operation

namespace BlockStage

namespace Stage

variable {α : Type} {s t : Stage α}

/-! ## Back links -/

/-- Each link has its back link, and only one. -/
structure Linked (s : Stage α) : Prop where
  backed : ∀ c p, c ∈ s.children p ↔ s.parent? c = some p
  once : ∀ p, (s.children p).Nodup

theorem children_of_gone {h : Handle} (gone : s.actor? h = none) : s.children h = [] := by
  rw [children, gone]

theorem children_modify_same (s : Stage α) (x h : Handle) {f : Actor α → Actor α}
    (hf : ∀ a, (f a).children = a.children) : (s.modify x f).children h = s.children h := by
  have read : ∀ t : Stage α, t.children h = ((t.actor? h).map Actor.children).getD [] := by
    intro t
    rw [children]
    cases t.actor? h <;> rfl
  rw [read, read, s.map_actor?_modify Actor.children x h hf]

/-- A list of children that is changed; someone who is gone has the empty one. -/
theorem children_modify (s : Stage α) (x p : Handle) {f : List Handle → List Handle}
    (hf : s.actor? x = none → f [] = []) :
    (s.modify x fun a => { a with children := f a.children }).children p
      = if p = x then f (s.children p) else s.children p := by
  rw [children, actor?_modify]
  by_cases same : p = x
  · rw [if_pos (beq_iff_eq.mpr same), if_pos same, same, children]
    cases there : s.actor? x with
    | none => exact (hf there).symm
    | some a => rfl
  · rw [if_neg fun h => same (eq_of_beq h), if_neg same]
    rfl

namespace Linked

theorem of_same (hs : s.Linked) (parent : ∀ x, t.parent? x = s.parent? x)
    (children : ∀ x, t.children x = s.children x) : t.Linked where
  backed c p := by
    rw [children, parent]
    exact hs.backed c p
  once p := by
    rw [children]
    exact hs.once p

theorem sameTies (hs : s.Linked) (h : SameTies s t) : t.Linked := hs.of_same h.parent? h.children

/-- Links lead to live actors. -/
theorem parent_live (hs : s.Linked) {c p : Handle} (hp : s.parent? c = some p) :
    (s.actor? p).isSome = true := by
  by_contra gone
  have childless := children_of_gone (Option.not_isSome_iff_eq_none.mp gone)
  have listed := (hs.backed c p).mpr hp
  rw [childless] at listed
  cases listed

/-- Links lead from live actors. -/
theorem child_live (hs : s.Linked) {c p : Handle} (hc : c ∈ s.children p) :
    (s.actor? c).isSome = true := by
  have hp := (hs.backed c p).mp hc
  by_contra gone
  rw [parent?, Option.not_isSome_iff_eq_none.mp gone] at hp
  cases hp

section
variable [Scalar α]

/-! ## Detaching -/

/-- Whoever is detached is struck off every list, and stood on one at most. -/
theorem children_detach (hs : s.Linked) (child p : Handle) :
    (s.detach child).2.children p = (s.children p).filter fun c => c != child := by
  -- a list on which the child does not stand stays
  have unlisted : s.parent? child ≠ some p →
      s.children p = (s.children p).filter fun c => c != child := by
    refine fun other => (List.filter_eq_self.mpr fun c hc => bne_iff_ne.mpr fun same => ?_).symm
    exact other ((hs.backed child p).mp (same ▸ hc))
  rw [detach]
  split
  · rename_i parent linked
    show (s.release child parent).children p = _
    rw [release, children_modify_same _ child p (by intro a; rfl),
      s.children_modify parent p fun _ => rfl]
    by_cases same : p = parent
    · rw [if_pos same]
    · rw [if_neg same]
      refine unlisted fun h => same ?_
      exact Option.some.inj (h.symm.trans linked)
  · rename_i loose
    exact unlisted fun h => by
      rw [loose] at h
      cases h

theorem detach (hs : s.Linked) (child : Handle) : (s.detach child).2.Linked where
  backed c p := by
    rw [hs.children_detach, parent?_detach, List.mem_filter, bne_iff_ne, hs.backed]
    by_cases same : c = child
    · rw [if_pos same]
      exact ⟨fun h => absurd same h.2, fun h => (by cases h)⟩
    · rw [if_neg same]
      exact and_iff_left same
  once p := by
    rw [hs.children_detach]
    exact (hs.once p).filter _

theorem foldl_detach (hs : s.Linked) (l : List Handle) :
    (l.foldl (fun s child => (s.detach child).2) s).Linked ∧
      ∀ p, (l.foldl (fun s child => (s.detach child).2) s).children p
        = (s.children p).filter fun c => !l.contains c := by
  induction l generalizing s with
  | nil => exact ⟨hs, fun p => (List.filter_eq_self.mpr fun _ _ => rfl).symm⟩
  | cons child l ih =>
    obtain ⟨linked, left⟩ := ih (hs.detach child)
    refine ⟨linked, fun p => (left p).trans ?_⟩
    rw [hs.children_detach, List.filter_filter]
    refine List.filter_congr fun c _ => ?_
    rw [List.contains_cons, Bool.not_or, Bool.and_comm]
    rfl

/-! ## Attaching -/

theorem link (hs : s.Linked) {child parent : Handle} (loose : s.parent? child = none)
    (liveChild : (s.actor? child).isSome = true) (liveParent : (s.actor? parent).isSome = true)
    (cw pw : Placement α) : (s.link child parent cw pw).Linked := by
  have children : ∀ p, (s.link child parent cw pw).children p
      = if p = parent then s.children p ++ [child] else s.children p := by
    intro p
    rw [Stage.link, children_modify _ parent p (f := (· ++ [child])) fun gone => ?_,
      children_modify_same s child p (by intro a; rfl)]
    -- the parent is still there when it gets its new child
    exact absurd gone (Option.isSome_iff_ne_none.mp
      ((s.isSome_actor?_modify child parent _).trans liveParent))
  have orphan : ∀ p, child ∉ s.children p := fun p listed => by
    have hp := (hs.backed child p).mp listed
    rw [loose] at hp
    cases hp
  refine ⟨fun c p => ?_, fun p => ?_⟩
  · rw [children, parent?_link s parent cw pw liveChild]
    by_cases new : c = child
    · rw [if_pos new, new]
      by_cases same : p = parent
      · rw [if_pos same, same]
        exact iff_of_true (List.mem_append_right _ (List.mem_singleton_self child)) rfl
      · rw [if_neg same]
        exact iff_of_false (orphan p) fun h => same (Option.some.inj h).symm
    · rw [if_neg new, ← hs.backed]
      split
      · rw [List.mem_append, List.mem_singleton, or_iff_left new]
      · exact Iff.rfl
  · rw [children]
    split
    · exact List.nodup_append_comm.mp (List.nodup_cons.mpr ⟨orphan p, hs.once p⟩)
    · exact hs.once p

theorem attach (hs : s.Linked) (child parent : Handle) : (s.attach child parent).2.Linked := by
  rw [Stage.attach]
  split
  · exact hs
  split
  · exact hs
  dsimp only
  split
  · rename_i cw pw hcw hpw
    have loose : (s.detach child).2.parent? child = none := by
      rw [parent?_detach, if_pos rfl]
    have liveChild := isSome_world? (s.detach child).2 child
    have liveParent := isSome_world? (s.detach child).2 parent
    rw [hcw] at liveChild
    rw [hpw] at liveParent
    exact (hs.detach child).link loose liveChild.symm liveParent.symm cw pw
  · exact hs.detach child

end

/-! ## Leaving -/

/-- Whoever has neither parent nor children may go. -/
theorem dismiss (hs : s.Linked) {h : Handle} (orphan : s.parent? h = none)
    (childless : s.children h = []) : (s.dismiss h).Linked := by
  have found : ∀ x, (s.dismiss h).actor? x = if x == h then none else s.actor? x :=
    s.actors.get?_erase h
  refine hs.of_same (fun x => ?_) fun x => ?_
  · rw [parent?, found]
    split
    · rename_i same
      rw [eq_of_beq same, orphan]
      rfl
    · rfl
  · rw [children, found]
    by_cases same : (x == h) = true
    · rw [if_pos same, eq_of_beq same, childless]
    · rw [if_neg same]
      rfl

end Linked

/-! ## The chart -/

section
variable [Scalar α]

omit [Scalar α] in
/-- With the actor its body leaves physics, and nobody else's. -/
theorem charted_depart (hs : s.solids.Charted s.chart) (h : Handle) :
    ((s.disembody h).dismiss h).solids.Charted ((s.disembody h).dismiss h).chart := by
  have chart : ∀ x, ((s.disembody h).dismiss h).chart x = if x = h then none else s.chart x := by
    intro x
    rw [Stage.chart, body?_depart, apply_ite (Option.map Body.keys)]
    rfl
  have solids : ((s.disembody h).dismiss h).solids
      = (s.body? h).elim s.solids fun b => s.solids.remove b.key := by
    cases embodied : s.body? h <;> simp only [disembody, dismiss, embodied, Option.elim]
  rw [solids]
  cases embodied : s.body? h with
  | none =>
    refine hs.congr fun x => (chart x).trans ?_
    by_cases same : x = h
    · rw [if_pos same, same, Stage.chart, embodied]
      rfl
    · rw [if_neg same]
  | some b =>
    have charted : s.chart h = some (b.key, b.collider) := by
      rw [Stage.chart, embodied]
      rfl
    refine (hs.remove b.key).congr fun x => (chart x).trans (Option.ext fun keys => ?_)
    obtain ⟨k, c⟩ := keys
    rw [Chart.without_eq_some_iff, List.mem_singleton]
    by_cases same : x = h
    · rw [if_pos same, same, charted]
      refine iff_of_false (fun none => (by cases none)) fun own => own.2 ?_
      exact (congrArg Prod.fst (Option.some.inj own.1)).symm
    · rw [if_neg same]
      -- nobody else has that body
      refine ⟨fun hc => ⟨hc, fun key => same ?_⟩, And.left⟩
      exact hs.unique (key ▸ hc) charted

theorem charted_enablePhysics (hs : s.solids.Charted s.chart) (h : Handle)
    (settings : BodySettings α) :
    (s.enablePhysics h settings).2.solids.Charted (s.enablePhysics h settings).2.chart := by
  rcases s.enablePhysics_cases h settings with same | ⟨a, b, ha, bare, keys, -, entered⟩
  · rw [same]
    exact hs
  · have uncharted : s.chart h = none := by
      rw [chart, body?, ha, Option.bind_some, bare]
      rfl
    rw [entered]
    refine (hs.addOwned uncharted).congr fun x => ?_
    rw [chart, body?_enter ha, apply_ite (Option.map Body.keys), Option.map_some, keys]
    rfl

theorem Linked.enablePhysics (hs : s.Linked) (h : Handle) (settings : BodySettings α) :
    (s.enablePhysics h settings).2.Linked := by
  rcases s.enablePhysics_cases h settings with same | ⟨a, b, -, -, -, -, entered⟩
  · rw [same]
    exact hs
  · rw [entered]
    refine hs.of_same (fun x => ?_) fun x => ?_
    · exact parent?_modify_same _ h x fun _ => rfl
    · exact children_modify_same _ h x fun _ => rfl

/-- Someone without ties who comes under a new handle changes nobody's. -/
theorem ties_place (hs : s.Orderly) (d : Spawn α) :
    let u := s.receive (s.actorOf d)
    (∀ x, u.parent? x = s.parent? x) ∧ (∀ x, u.children x = s.children x) ∧
      ∀ x, u.chart x = s.chart x := by
  intro u
  have free : s.ties? s.nextHandle = none := by
    refine Option.not_isSome_iff_eq_none.mp fun there => hs.fresh (Table.mem_keys.mpr ?_)
    rw [isSome_ties?] at there
    exact there
  have ties : ∀ x, u.ties? x = if x = s.nextHandle then some ⟨none, [], none⟩ else s.ties? x := by
    intro x
    rw [ties?, actor?_receive]
    split <;> rfl
  have read : ∀ {β : Type} (g : Option Ties → β), g (some ⟨none, [], none⟩) = g none →
      ∀ x, g (u.ties? x) = g (s.ties? x) := by
    intro β g same x
    rw [ties]
    split
    · rename_i new
      rw [new, free, same]
    · rfl
  refine ⟨fun x => ?_, fun x => ?_, fun x => ?_⟩
  · rw [parent?_eq, parent?_eq]
    exact read (·.bind Ties.parent) rfl x
  · rw [children_eq, children_eq]
    exact read (fun t => (t.map Ties.children).getD []) rfl x
  · rw [chart_eq, chart_eq]
    exact read (·.bind Ties.keys) rfl x

/-! ## The invariant -/

omit [Scalar α] in
/-- Actors, links and the register of solids agree with one another. -/
structure Tied (s : Stage α) : Prop where
  orderly : s.Orderly
  linked : s.Linked
  charted : s.solids.Charted s.chart

omit [Scalar α] in
/-- A stage on which nobody is. -/
theorem Tied.empty (orderly : s.Orderly) (actors : s.actors = .empty)
    (charted : s.solids.Charted fun _ => none) : s.Tied := by
  have nobody : ∀ x, s.actor? x = none := by
    intro x
    rw [actor?, actors]
    rfl
  refine ⟨orderly, ⟨fun c p => ?_, fun p => ?_⟩, charted.congr fun x => ?_⟩
  · rw [children_of_gone (nobody p), parent?, nobody c]
    exact ⟨fun h => (by cases h), fun h => (by cases h)⟩
  · rw [children_of_gone (nobody p)]
    exact List.nodup_nil
  · rw [chart, body?, nobody x]
    rfl

omit [Scalar α] in
theorem tied_new (canvas : Canvas α) (physics : PhysicsConfig α) :
    (Stage.new canvas physics).Tied :=
  .empty (.new canvas physics) rfl (.new physics.ground physics.walls)

namespace Tied

omit [Scalar α] in
/-- What leaves ties and order alone leaves everything in agreement. -/
theorem sameTies (hs : s.Tied) (h : SameTies s t) (orderly : t.Orderly) : t.Tied where
  orderly := orderly
  linked := hs.linked.sameTies h
  charted := by
    rw [h.solids]
    exact hs.charted.congr h.chart

theorem spawn (hs : s.Tied) {d : Spawn α} {h : Handle} (ht : s.spawn d = .ok (h, t)) : t.Tied := by
  have orderly := (spawned_of_spawn hs.orderly.fresh ht).orderly hs.orderly
  obtain ⟨parent, children, chart⟩ := s.ties_place hs.orderly d
  obtain ⟨-, rfl⟩ := eq_of_spawn ht
  let u := s.receive (s.actorOf d)
  have linked : u.Linked := hs.linked.of_same parent children
  have charted : u.solids.Charted u.chart := hs.charted.congr chart
  obtain ⟨linked, charted⟩ : (u.embody s.nextHandle d.body).Linked ∧
      (u.embody s.nextHandle d.body).solids.Charted (u.embody s.nextHandle d.body).chart :=
    embody_keeps (P := fun v => v.Linked ∧ v.solids.Charted v.chart) ⟨linked, charted⟩
      (fun settings =>
        ⟨linked.enablePhysics _ settings, u.charted_enablePhysics charted _ settings⟩) d.body
  exact ⟨orderly, ⟨linked.backed, linked.once⟩, charted⟩

/-- **Leaving**: the children go first, then the parent, and with the actor its body. -/
theorem despawn (hs : s.Tied) (id : String) : (s.despawn id).2.Tied := by
  have orderly : (s.despawn id).2.Orderly := hs.orderly.apply (.despawn id)
  cases found : s.find? id with
  | none =>
    rw [Stage.despawn, found]
    exact hs
  | some h =>
    let u : Stage α :=
      { s with index := s.index.erase id, ids := s.ids.filter fun other => other != id }
    let v := (u.children h).foldl (fun s child => (s.detach child).2) u
    let w := (v.detach h).2
    have left : (s.despawn id).2 = (w.disembody h).dismiss h := by
      rw [Stage.despawn, found]
    have linked : u.Linked := hs.linked.of_same (fun _ => rfl) fun _ => rfl
    obtain ⟨released, listed⟩ := linked.foldl_detach (u.children h)
    -- the children are off the list, and nobody else was on it
    have childless : w.children h = [] := by
      rw [released.children_detach, listed]
      refine List.eq_nil_iff_forall_not_mem.mpr fun c hc => ?_
      obtain ⟨old, gone⟩ := List.mem_filter.mp (List.mem_of_mem_filter hc)
      rw [List.contains_iff_mem.mpr old] at gone
      cases gone
    have orphan : w.parent? h = none := by
      rw [parent?_detach, if_pos rfl]
    have struck : SameSight Actor.feet s u := ⟨fun _ => rfl, rfl, rfl, rfl⟩
    have kept : SameSight Actor.feet s w :=
      struck.trans ((SameSight.foldl sameSight_detach (u.children h) u).trans (v.sameSight_detach h))
    rw [left] at orderly ⊢
    refine ⟨orderly, ?_, w.charted_depart ?_ h⟩
    · exact ((released.detach h).of_same (t := w.disembody h) (fun _ => rfl) fun _ => rfl).dismiss
        orphan childless
    · exact kept.charted hs.charted

/-- **The step lemma**: every operation leaves actors, links and the register in agreement. -/
theorem apply (hs : s.Tied) (op : Op α) : (op.apply s).Tied := by
  have orderly := hs.orderly.apply op
  cases op with
  | spawn d =>
    rw [Op.apply]
    split
    · exact hs.spawn ‹_›
    · exact hs
  | despawn id => exact hs.despawn id
  | clear => exact .empty orderly hs.orderly.actors_clear hs.charted.clearOwned
  | attach child parent =>
    have same := s.sameSight_attach child parent
    exact ⟨orderly, hs.linked.attach child parent, same.charted hs.charted⟩
  | detach child =>
    have same := s.sameSight_detach child
    exact ⟨orderly, hs.linked.detach child, same.charted hs.charted⟩
  | enablePhysics h settings =>
    exact ⟨orderly, hs.linked.enablePhysics h settings, s.charted_enablePhysics hs.charted h settings⟩
  | resizeCanvas width height =>
    rcases overlooks_ties.resizeCanvas s width height with
      ⟨-, same⟩ | ⟨-, u, seen, resized⟩
    · rw [Op.apply, same]
      exact hs
    · have ties := seen.sameTies
      rw [Op.apply, resized] at orderly ⊢
      have charted : u.solids.Charted u.chart := by
        rw [ties.solids]
        exact hs.charted.congr ties.chart
      exact ⟨orderly, hs.linked.of_same ties.parent? ties.children, charted.rebuild _ _⟩
  | step engine dt => exact hs.sameTies (s.sameTies_stepBy engine dt) orderly
  | _ => exact hs.sameTies (overlooks_ties.apply s (by trivial)).sameTies orderly

/-- **The run lemma**: so does every run. -/
theorem perform (hs : s.Tied) (ops : List (Op α)) : (s.perform ops).Tied := by
  induction ops generalizing s with
  | nil => exact hs
  | cons op ops ih => exact ih (hs.apply op)

end Tied

end

/-! ## The result -/

/-- The owners that the colliders of the actors' bodies should have. -/
def ownership (s : Stage α) : List (ColliderKey × Handle) :=
  s.actors.entries.filterMap fun e => e.2.body.map fun b => (b.collider, e.1)

/-- **Stage links are consistent**: an actor has a parent exactly if it stands on the list of its
    children, and then once; links lead from live actors to live actors; and the register has one
    entry for each live actor with a body, which leads from its collider to it, and no others. -/
structure Consistent (s : Stage α) : Prop where
  backed : ∀ c p, s.parent? c = some p ↔ c ∈ s.children p
  once : ∀ c p, s.parent? c = some p → (s.children p).count c = 1
  parent : ∀ c p, s.parent? c = some p → (s.actor? p).isSome = true
  child : ∀ c p, c ∈ s.children p → (s.actor? c).isSome = true
  owners : s.solids.owners.entries.Perm s.ownership

theorem Tied.owners (hs : s.Tied) : s.solids.owners.entries.Perm s.ownership := by
  have nodup : ∀ {κ β : Type} {t : Table κ β}, t.keys.Nodup → t.entries.Nodup :=
    fun h => List.Nodup.of_map Prod.fst h
  have listed : ∀ c h, (c, h) ∈ s.ownership ↔ ∃ b, s.chart h = some (b, c) := by
    intro c h
    rw [ownership, List.mem_filterMap]
    constructor
    · rintro ⟨⟨x, a⟩, there, owner⟩
      obtain ⟨b, hb, same⟩ := Option.map_eq_some_iff.mp owner
      obtain ⟨rfl, rfl⟩ := Prod.mk.inj same
      have found : s.actor? x = some a := (Table.mem_entries_iff hs.orderly.keys).mp there
      refine ⟨b.key, ?_⟩
      rw [chart, body?, found, Option.bind_some, hb]
      rfl
    · rintro ⟨k, hk⟩
      obtain ⟨b, embodied, keys⟩ := Option.map_eq_some_iff.mp hk
      obtain ⟨a, found, hb⟩ := Option.bind_eq_some_iff.mp embodied
      refine ⟨(h, a), Table.mem_of_get? found, ?_⟩
      show (a.body.map fun b => (b.collider, h)) = some (c, h)
      rw [hb, ← (Prod.mk.inj keys).2]
      rfl
  refine (List.perm_ext_iff_of_nodup (nodup hs.charted.once) ?_).mpr fun e => ?_
  · -- each actor is entered with its own handle
    have apart := List.pairwise_map.mp hs.orderly.keys
    refine List.pairwise_filterMap.mpr (apart.imp fun {e e'} other o ho o' ho' same => other ?_)
    obtain ⟨b, -, rfl⟩ := Option.map_eq_some_iff.mp ho
    obtain ⟨b', -, rfl⟩ := Option.map_eq_some_iff.mp ho'
    exact (Prod.mk.inj same).2
  · obtain ⟨c, h⟩ := e
    rw [Table.mem_entries_iff hs.charted.once, hs.charted.owned, listed]

theorem Tied.consistent (hs : s.Tied) : s.Consistent where
  backed c p := (hs.linked.backed c p).symm
  once c p hp := List.count_eq_one_of_mem (hs.linked.once p) ((hs.linked.backed c p).mpr hp)
  parent _ _ hp := hs.linked.parent_live hp
  child _ _ hc := hs.linked.child_live hc
  owners := hs.owners

/-- **Consistency holds after every run**, whatever handles its operations are given. -/
theorem consistent_of_perform [Scalar α] (canvas : Canvas α) (physics : PhysicsConfig α)
    (ops : List (Op α)) : ((Stage.new canvas physics).perform ops).Consistent :=
  ((tied_new canvas physics).perform ops).consistent

end Stage

end BlockStage
