/-
  Chains: how much of the way up shows in where an actor is.

  1. **Specification (`Stage.Chain`, `Placement.outOf`)** — the chain of an actor is the list of the
     stored placements of all its ancestors, the parent's first and that of someone without a parent
     last.  A placement is carried out of them one by one.

  2. **The crux (`Chain.carry_eq`)** — the walk up composes a placement with as many frames as its
     counter allows, whatever stands beyond them.  So an actor is where its whole chain puts it
     exactly if the frames beyond the limit change nothing (`world?_of_forest`).

  3. **Chains end** — links lead to live actors, there are finitely many of those, and on a forest
     none is met twice; so each actor has its chain (`exists_chain`).

  4. **The gap** — attaching does not bound chains.  On a tower of actors that are all twice as large
     as usual only the lowest keeps the size, and the highest does not see it any more
     (`not_world?_tower`).
-/
import BlockStage.Proofs.Geometry.Frame
import BlockStage.Proofs.Stage.InStep
import Mathlib.Data.Set.Finite.List

namespace BlockStage

variable {α : Type}

/-- What decides where an actor is: its parent, and its placement in the parent's frame. -/
def Actor.seat (a : Actor α) : Option Handle × Placement α := (a.parent, a.placement)

namespace Stage

variable {s t : Stage α}

/-! ## Seats -/

/-- The seat of a live actor. -/
def seat? (s : Stage α) (h : Handle) : Option (Option Handle × Placement α) :=
  (s.actor? h).map Actor.seat

theorem parent?_eq_seat (s : Stage α) (h : Handle) : s.parent? h = (s.seat? h).bind Prod.fst := by
  rw [parent?, seat?]
  cases s.actor? h <;> rfl

theorem isSome_seat? (s : Stage α) (h : Handle) : (s.seat? h).isSome = (s.actor? h).isSome :=
  Option.isSome_map

theorem parent?_of_seat {h : Handle} {up : Option Handle} {frame : Placement α}
    (seat : s.seat? h = some (up, frame)) : s.parent? h = up := by
  rw [parent?_eq_seat, seat]
  rfl

/-- A change that leaves the seat of an actor alone leaves all seats alone. -/
theorem seat?_modify_same (s : Stage α) (x h : Handle) {f : Actor α → Actor α}
    (hf : ∀ a, (f a).seat = a.seat) : (s.modify x f).seat? h = s.seat? h :=
  s.map_actor?_modify Actor.seat x h hf

section
variable [Scalar α]

theorem world?_eq_seat (s : Stage α) (h : Handle) :
    s.world? h = (s.seat? h).map fun seat => s.carry linkLimit seat.1 seat.2 := by
  rw [world?, seat?]
  cases s.actor? h <;> rfl

/-- One frame on the way up. -/
theorem carry_link {h : Handle} {up : Option Handle} {frame : Placement α}
    (seat : s.seat? h = some (up, frame)) (n : Nat) (p : Placement α) :
    s.carry (n + 1) (some h) p = s.carry n up (frame.compose p) := by
  obtain ⟨a, ha, same⟩ := Option.map_eq_some_iff.mp seat
  obtain ⟨rfl, rfl⟩ := Prod.mk.inj same
  rw [carry, ha]

/-- Whoever is detached is seated where it was on the canvas; everyone else stays. -/
theorem seat?_detach (s : Stage α) (child x : Handle) :
    (s.detach child).2.seat? x
      = if x = child then (s.world? child).map fun w => (none, w) else s.seat? x := by
  by_cases same : x = child
  · rw [if_pos same, same]
    have there := s.isSome_actor?_detach child child
    have placed := s.isSome_world? child
    cases ha' : (s.detach child).2.actor? child with
    | none =>
      rw [ha'] at there
      rw [← there] at placed
      rw [seat?, ha', Option.isSome_eq_false_iff.mp placed |> Option.isNone_iff_eq_none.mp]
      rfl
    | some a' =>
      rw [seat?, ha']
      rcases actor?_detach_self ha' with ⟨old, free⟩ | ⟨a, w, -, -, hw, free, placement, -⟩
      · -- someone without a parent was there already
        rw [world?, old, Option.map_some, Option.map_some, Option.map_some, Actor.seat, free]
        rfl
      · rw [hw, Option.map_some, Option.map_some, Actor.seat, free, placement]
  · rw [if_neg same]
    have kept := congrArg (Option.map fun p : Posture α => (p.parent, p.placement))
      (s.posture_detach_other same)
    rw [Option.map_map, Option.map_map] at kept
    exact kept

theorem seat?_link (s : Stage α) (child parent : Handle) (cw pw : Placement α) (x : Handle) :
    (s.link child parent cw pw).seat? x
      = if x = child then (s.seat? child).map fun _ => (some parent, pw.seenFrom cw)
        else s.seat? x := by
  rw [link, seat?_modify_same _ parent x (by intro a; rfl), seat?, actor?_modify]
  by_cases same : x = child
  · rw [if_pos (beq_iff_eq.mpr same), if_pos same, seat?, Option.map_map, Option.map_map]
    rfl
  · rw [if_neg fun h => same (eq_of_beq h), if_neg same]
    rfl

theorem seat?_enablePhysics (s : Stage α) (h : Handle) (settings : BodySettings α) (x : Handle) :
    (s.enablePhysics h settings).2.seat? x = s.seat? x := by
  rw [enablePhysics]
  split
  · split
    · rfl
    · exact seat?_modify_same _ h x fun _ => rfl
  · rfl

/-- Who comes on stage has no parent; everyone else stays. -/
theorem seat?_spawn {d : Spawn α} {h : Handle} (ht : s.spawn d = .ok (h, t)) (x : Handle) :
    t.seat? x = if x = h then some (none, (s.actorOf d).placement) else s.seat? x := by
  obtain ⟨rfl, rfl⟩ := eq_of_spawn ht
  let u := s.receive (s.actorOf d)
  have placed : u.seat? x
      = if x = s.nextHandle then some (none, (s.actorOf d).placement) else s.seat? x := by
    rw [seat?, actor?_receive]
    split <;> rfl
  have embodied : (u.embody s.nextHandle d.body).seat? x = u.seat? x :=
    embody_keeps (P := fun v => v.seat? x = u.seat? x) rfl
      (fun settings => u.seat?_enablePhysics _ settings x) d.body
  exact embodied.trans placed

/-- The walk up does not change as long as it avoids the one whose seat does. -/
theorem carry_eq_of_avoids {child : Handle} (agree : ∀ x, x ≠ child → t.seat? x = s.seat? x)
    {n : Nat} {link : Option Handle} (p : Placement α)
    (avoids : ∀ m < n, link.bind (s.above m) ≠ some child) :
    t.carry n link p = s.carry n link p := by
  induction n generalizing link p with
  | zero => rfl
  | succ n ih =>
    cases link with
    | none => rfl
    | some h =>
      have same := agree h fun same => avoids 0 (Nat.succ_pos n) (congrArg some same)
      cases seat : s.seat? h with
      | none =>
        have gone := fun {u : Stage α} (hu : u.seat? h = none) => Option.map_eq_none_iff.mp hu
        rw [carry, carry, gone seat, gone (same.trans seat)]
      | some place =>
        obtain ⟨up, frame⟩ := place
        rw [carry_link seat, carry_link (same.trans seat)]
        refine ih _ fun m hm up' => avoids (m + 1) (Nat.succ_lt_succ hm) ?_
        rw [Option.bind_some, above, parent?_of_seat seat]
        exact up'

/-- **Who is attached** is seated under the parent as it was seen from there, and nobody else is
    moved; the child is nowhere on the way up from the parent, as far as the search goes. -/
theorem seat?_attach {child parent : Handle} (ok : (s.attach child parent).1 = .ok ()) :
    ∃ cw pw, s.world? child = some cw ∧ s.world? parent = some pw ∧
      (∀ n ≤ linkLimit + 1, s.above n parent ≠ some child) ∧
      ∀ x, (s.attach child parent).2.seat? x
        = if x = child then some (some parent, pw.seenFrom cw) else s.seat? x := by
  by_cases apart : child = parent
  · rw [attach, if_pos apart] at ok
    cases ok
  by_cases found : s.isAncestor child parent = true
  · rw [attach, if_neg apart, if_pos found] at ok
    cases ok
  have avoids : ∀ n ≤ linkLimit + 1, s.above n parent ≠ some child := fun n le up =>
    found ((isAncestor_iff_of_ne apart).mpr ⟨n, le, up⟩)
  rw [attach, if_neg apart, if_neg found] at ok ⊢
  dsimp only at ok ⊢
  split at ok
  · rename_i cw pw hcw hpw
    have ofChild := s.seat?_detach child child
    rw [if_pos rfl] at ofChild
    have others : ∀ x, x ≠ child → (s.detach child).2.seat? x = s.seat? x := fun x other => by
      rw [seat?_detach, if_neg other]
    refine ⟨cw, pw, ?_, ?_, avoids, fun x => ?_⟩
    · rw [world?_eq_seat, ofChild, Option.map_map] at hcw
      obtain ⟨w, hw, rfl⟩ := Option.map_eq_some_iff.mp hcw
      exact hw
    · rw [world?_eq_seat, others parent (Ne.symm apart)] at hpw
      obtain ⟨⟨up, frame⟩, seat, carried⟩ := Option.map_eq_some_iff.mp hpw
      rw [world?_eq_seat, seat, ← carried]
      refine congrArg some (carry_eq_of_avoids others frame fun m hm back => ?_).symm
      -- a step on the way up from the parent's parent is one more from the parent
      refine avoids (m + 1) (by omega) ?_
      rw [above, parent?_of_seat seat]
      exact back
    · rw [seat?_link, ofChild, seat?_detach]
      by_cases same : x = child
      · rw [if_pos same, if_pos same]
        rw [world?_eq_seat, ofChild] at hcw
        obtain ⟨seat, hs, -⟩ := Option.map_eq_some_iff.mp hcw
        rw [hs]
        rfl
      · rw [if_neg same, if_neg same, if_neg same]
  · cases ok

end

/-! ## Chains -/

/-- The frames on the way up from a link, to someone without a parent. -/
inductive Chain (s : Stage α) : Option Handle → List (Placement α) → Prop where
  | root : Chain s none []
  | link {h : Handle} {up : Option Handle} {frame : Placement α} {l : List (Placement α)}
      (seat : s.seat? h = some (up, frame)) (rest : Chain s up l) : Chain s (some h) (frame :: l)

namespace Chain

variable {link : Option Handle} {l k : List (Placement α)}

theorem unique (c : s.Chain link l) (d : s.Chain link k) : l = k := by
  induction c generalizing k with
  | root =>
    cases d
    rfl
  | link seat _ ih =>
    cases d with
    | link seat' rest =>
      obtain ⟨rfl, rfl⟩ := Prod.mk.inj (Option.some.inj (seat.symm.trans seat'))
      rw [ih rest]

/-- Chains are as long as it takes to run out of links. -/
theorem length_le_iff (c : s.Chain link l) (n : Nat) :
    l.length ≤ n ↔ link.bind (s.above n) = none := by
  induction c generalizing n with
  | root => exact iff_of_true (Nat.zero_le n) rfl
  | link seat _ ih =>
    cases n with
    | zero =>
      refine iff_of_false (Nat.not_succ_le_zero _) fun h => ?_
      cases h
    | succ n =>
      rw [List.length_cons, Nat.succ_le_succ_iff, ih, Option.bind_some, above, parent?_of_seat seat]

/-- Chains along which nobody is moved stay. -/
theorem congr (c : s.Chain link l)
    (same : ∀ n h, link.bind (s.above n) = some h → t.seat? h = s.seat? h) : t.Chain link l := by
  induction c with
  | root => exact .root
  | link seat _ ih =>
    refine .link ((same 0 _ rfl).trans seat) (ih fun n h up => same (n + 1) h ?_)
    rw [Option.bind_some, above, parent?_of_seat seat]
    exact up

variable [Scalar α]

/-- **The walk up sees as many frames as it is allowed to.** -/
theorem carry_eq (c : s.Chain link l) (n : Nat) (p : Placement α) :
    s.carry n link p = p.outOf (l.take n) := by
  induction c generalizing n p with
  | root =>
    rw [List.take_nil]
    cases n <;> rfl
  | link seat _ ih =>
    cases n with
    | zero => rfl
    | succ n =>
      rw [carry_link seat, ih]
      rfl

theorem world?_eq {h : Handle} {up : Option Handle} {p : Placement α}
    (seat : s.seat? h = some (up, p)) (c : s.Chain up l) :
    s.world? h = some (p.outOf (l.take linkLimit)) := by
  rw [world?_eq_seat, seat, Option.map_some, c.carry_eq]

/-- A chain within the limit is seen as a whole. -/
theorem world?_eq_of_le {h : Handle} {up : Option Handle} {p : Placement α}
    (seat : s.seat? h = some (up, p)) (c : s.Chain up l) (short : l.length ≤ linkLimit) :
    s.world? h = some (p.outOf l) := by
  rw [c.world?_eq seat, List.take_of_length_le short]

end Chain

/-- Links that run out have a chain. -/
theorem chain_of_above (linked : s.Linked) {n : Nat} {link : Option Handle}
    (live : ∀ h, link = some h → (s.actor? h).isSome = true)
    (ends : link.bind (s.above n) = none) : ∃ l, s.Chain link l := by
  induction n generalizing link with
  | zero =>
    cases link with
    | none => exact ⟨[], .root⟩
    | some h => cases ends
  | succ n ih =>
    cases link with
    | none => exact ⟨[], .root⟩
    | some h =>
      obtain ⟨⟨up, frame⟩, seat⟩ := Option.isSome_iff_exists.mp ((s.isSome_seat? h).trans (live h rfl))
      have parent := parent?_of_seat seat
      rw [Option.bind_some, above, parent] at ends
      obtain ⟨l, rest⟩ := ih (fun p hp => linked.parent_live (parent.trans hp)) ends
      exact ⟨frame :: l, .link seat rest⟩

/-- **On a forest the way up ends**: it meets nobody twice, and there are finitely many actors. -/
theorem Forest.ends (forest : s.Forest) (h : Handle) :
    ∃ n, s.above n h = none := by
  by_contra endless
  have met : ∀ n, ∃ x, s.above n h = some x := fun n =>
    Option.ne_none_iff_exists'.mp fun ended => endless ⟨n, ended⟩
  choose way up using met
  have step : ∀ m n, s.above n (way m) = some (way (m + n)) := fun m n => by
    have on := up (m + n)
    rw [above_add, up m] at on
    exact on
  have apart : ∀ m n, m < n → way m ≠ way n := by
    intro m n less same
    obtain ⟨k, rfl⟩ := Nat.exists_eq_add_of_lt less
    refine forest k (way m) ?_
    rw [step m (k + 1), ← Nat.add_assoc, ← same]
  have injective : Function.Injective way := by
    intro m n same
    by_contra other
    rcases Nat.lt_or_gt_of_ne other with less | less
    · exact apart m n less same
    · exact apart n m less same.symm
  -- whoever is met has a parent, and so is live
  have live : ∀ n, way n ∈ s.actors.keys := by
    intro n
    have next := step n 1
    refine Table.mem_keys.mpr ?_
    by_contra gone
    rw [above, parent?] at next
    have none : s.actor? (way n) = none := Option.not_isSome_iff_eq_none.mp gone
    rw [none] at next
    cases next
  refine Set.infinite_range_of_injective injective ((List.finite_toSet s.actors.keys).subset ?_)
  rintro x ⟨n, rfl⟩
  exact live n

theorem exists_chain (forest : s.Forest) (linked : s.Linked) {h : Handle} {up : Option Handle}
    {p : Placement α} (seat : s.seat? h = some (up, p)) : ∃ l, s.Chain up l := by
  obtain ⟨n, ended⟩ := forest.ends h
  have parent := parent?_of_seat seat
  refine chain_of_above linked (fun x hx => linked.parent_live (parent.trans hx)) (n := n) ?_
  rw [← parent]
  -- a way that is over after some links is over after one more
  have longer : s.above (n + 1) h = none := by rw [above_add, ended, Option.bind_none]
  exact longer

/-! ## Stages that come about -/

section
variable [Scalar α]

/-- A stage to which operations lead, on which a host also puts actors at placements of its own. -/
inductive Reached : Stage α → Prop where
  | new (canvas : Canvas α) (physics : PhysicsConfig α) : Reached (Stage.new canvas physics)
  | op {s : Stage α} (hs : Reached s) (op : Op α) : Reached (op.apply s)
  | setWorld {s : Stage α} (hs : Reached s) (h : Handle) (w : Placement α) :
    Reached (s.setWorld h w).2

namespace Reached

theorem tied (hs : s.Reached) : s.Tied := by
  induction hs with
  | new canvas physics => exact tied_new canvas physics
  | op _ op ih => exact ih.apply op
  | @setWorld s _ h w ih =>
    have same := overlooks_ties.setWorld s h w
    exact ih.sameTies same.sameTies (ih.orderly.sameCast (s.calm_setWorld h w).toSameCast)

theorem placed (hs : s.Reached) : s.Placed := by
  induction hs with
  | new canvas physics => exact fun _ _ _ ha => (by cases ha)
  | op _ op ih => exact placed_apply ih op
  | setWorld _ h w ih => exact all_setWorld Actor.poised_placed ih h w

theorem perform (hs : s.Reached) (ops : List (Op α)) : (s.perform ops).Reached := by
  induction ops generalizing s with
  | nil => exact hs
  | cons op ops ih => exact ih (hs.op op)

theorem move (hs : s.Reached) (m : Move α) : (m.apply s).Reached := by
  cases m with
  | spawn d => exact hs.op (.spawn d)
  | despawn id => exact hs.op (.despawn id)
  | attach child parent => exact hs.op (.attach child parent)
  | detach child => exact hs.op (.detach child)
  | clear => exact hs.op .clear

theorem after (hs : s.Reached) (moves : List (Move α)) : (s.after moves).Reached := by
  induction moves generalizing s with
  | nil => exact hs
  | cons m moves ih => exact ih (hs.move m)

end Reached

/-! ## The result -/

/-- **How much of its chain an actor sees.**  On every forest that comes about, an actor has one
    chain, to someone without a parent, and is where the first `linkLimit` frames put it.  So it is
    where the whole chain puts it exactly if the frames beyond those leave it there, and certainly
    if there are no such frames. -/
theorem world?_of_forest (hs : s.Reached) (forest : s.Forest) {h : Handle} {a : Actor α}
    (ha : s.actor? h = some a) :
    (∃ l, s.Chain a.parent l) ∧ ∀ l, s.Chain a.parent l →
      s.world? h = some (a.placement.outOf (l.take linkLimit)) ∧
      (s.world? h = some (a.placement.outOf l) ↔
        (a.placement.outOf (l.take linkLimit)).outOf (l.drop linkLimit)
          = a.placement.outOf (l.take linkLimit)) ∧
      (l.length ≤ linkLimit → s.world? h = some (a.placement.outOf l)) := by
  have seat : s.seat? h = some (a.parent, a.placement) := by
    rw [seat?, ha]
    rfl
  refine ⟨exists_chain forest hs.tied.linked seat, fun l c => ?_⟩
  have seen := c.world?_eq seat
  refine ⟨seen, ?_, c.world?_eq_of_le seat⟩
  rw [seen, ← Placement.outOf_append, List.take_append_drop, Option.some.injEq]
  exact eq_comm

omit [Scalar α] in
/-- On a tower the chain of a floor is as long as the floor is high. -/
theorem Stacked.length_chain {m : Nat} (hs : Stacked m s) {h : Nat} (top : h ≤ m)
    {l : List (Placement α)} (c : s.Chain (s.parent? h) l) : l.length = h := by
  have up : ∀ n, (s.parent? h).bind (s.above n) = s.above (n + 1) h := fun _ => rfl
  refine Nat.le_antisymm ((c.length_le_iff h).mpr ?_) (Nat.le_of_not_lt fun short => ?_)
  · rw [up]
    refine Option.eq_none_iff_forall_not_mem.mpr fun (x : Nat) hx => ?_
    have := hs.above hx
    omega
  · have ended := (c.length_le_iff l.length).mp (Nat.le_refl _)
    rw [up, hs.above_of_le top short] at ended
    cases ended

/-- Of three actors on top of one another the highest sees the two below it. -/
theorem world?_of_forest_stacked :
    let s := (Stage.new (α := Float32) ⟨800, 600⟩ .usual).after (crew 3 ++ stacking 2)
    s.Reached ∧ s.Forest ∧ ∃ a l, s.actor? 2 = some a ∧ s.Chain a.parent l ∧ l.length = 2 ∧
      s.world? 2 = some (a.placement.outOf l) := by
  intro s
  have reached : s.Reached := (Reached.new _ _).after _
  obtain ⟨stacked, crewed⟩ : Stacked 2 s ∧ Crewed 3 s :=
    stacked_stacking ⟨800, 600⟩ .usual floors_new (Nat.le_refl 2)
  obtain ⟨a, ha⟩ := Option.isSome_iff_exists.mp (crewed.live 2 (by decide))
  obtain ⟨⟨l, c⟩, seen⟩ := world?_of_forest reached stacked.forest ha
  have parent : s.parent? 2 = a.parent := by
    rw [parent?, ha]
    rfl
  have long : l.length = 2 := stacked.length_chain (Nat.le_refl 2) (parent ▸ c)
  exact ⟨reached, stacked.forest, a, l, ha, c, long, (seen l c).2.2 (by rw [long]; decide)⟩

/-! ## Towers of large actors -/

omit [Scalar α] in
/-- Whoever is not attached has one scale, and whoever is attached the usual one. -/
structure Sized [Scalar α] (g : α) (s : Stage α) : Prop where
  free : ∀ h p, s.seat? h = some (none, p) → p.scale = Vec.both g
  attached : ∀ h parent p, s.seat? h = some (some parent, p) → p.scale = Vec.both Scalar.one

/-- A factor that is still itself after it has been multiplied by one, and is taken back by dividing
    by it. -/
structure Factor (g : α) : Prop where
  unit : (Scalar.one * Scalar.one : α) = Scalar.one
  times : g * Scalar.one = g
  quotient : g / Placement.divisor g = Scalar.one

namespace Sized

variable {g : α} {link : Option Handle} {l : List (Placement α)} {p : Placement α}

/-- **What large actors see of one another**: the scale of the lowest as soon as the lowest is seen,
    and before that nothing. -/
theorem scale_outOf (hs : Sized g s) (hg : Factor g) (c : s.Chain link l)
    (usual : p.scale = Vec.both Scalar.one) :
    (l ≠ [] → (p.outOf l).scale = Vec.both g) ∧
      ∀ n < l.length, (p.outOf (l.take n)).scale = Vec.both Scalar.one := by
  induction c generalizing p with
  | root => exact ⟨fun h => absurd rfl h, fun n hn => absurd hn (Nat.not_lt_zero n)⟩
  | @link h up frame l seat rest ih =>
    have composed : (frame.compose p).scale = frame.scale.times p.scale := rfl
    cases up with
    | none =>
      cases rest
      refine ⟨fun _ => ?_, fun n hn => ?_⟩
      · show (frame.compose p).scale = _
        rw [composed, hs.free h frame seat, usual]
        exact congrArg Vec.both hg.times
      · obtain rfl := Nat.lt_one_iff.mp hn
        exact usual
    | some parent =>
      have next : (frame.compose p).scale = Vec.both Scalar.one := by
        rw [composed, hs.attached h parent frame seat, usual]
        exact congrArg Vec.both hg.unit
      obtain ⟨whole, before⟩ := ih next
      refine ⟨fun _ => whole (by cases rest; exact List.cons_ne_nil _ _), fun n hn => ?_⟩
      cases n with
      | zero => exact usual
      | succ n => exact before n (Nat.lt_of_succ_lt_succ hn)

/-- Within the limit everyone is as large on the canvas. -/
theorem scale_world (hs : Sized g s) (hg : Factor g) {h : Handle} {up : Option Handle}
    (seat : s.seat? h = some (up, p)) (c : s.Chain up l) : (p.outOf l).scale = Vec.both g := by
  cases up with
  | none =>
    cases c
    exact hs.free h p seat
  | some parent =>
    refine (hs.scale_outOf hg c (hs.attached h parent p seat)).1 ?_
    cases c
    exact List.cons_ne_nil _ _

theorem spawn (hs : Sized g s) {d : Spawn α} (large : d.scale = Vec.both g) {h : Handle}
    (ht : s.spawn d = .ok (h, t)) : Sized g t := by
  constructor
  · intro x p seat
    rw [seat?_spawn ht] at seat
    split at seat
    · obtain ⟨-, rfl⟩ := Prod.mk.inj (Option.some.inj seat)
      exact large
    · exact hs.free x p seat
  · intro x parent p seat
    rw [seat?_spawn ht] at seat
    split at seat
    · cases seat
    · exact hs.attached x parent p seat

/-- Whoever is attached to someone just as large gets the usual scale. -/
theorem attach (hs : Sized g s) (hg : Factor g) {child parent : Handle}
    (loose : s.parent? child = none)
    (large : ∀ w, s.world? parent = some w → w.scale = Vec.both g) :
    Sized g (s.attach child parent).2 := by
  rcases s.attach_cases child parent with same | same | same | ⟨_, _, same⟩
  · rw [same]
    exact hs
  · rw [same]
    exact hs
  · rw [same, detach, loose]
    exact hs
  · obtain ⟨cw, pw, hcw, hpw, -, seats⟩ := seat?_attach (by rw [same] : (s.attach child parent).1 = _)
    have usual : (pw.seenFrom cw).scale = Vec.both Scalar.one := by
      have own : cw.scale = Vec.both g := by
        rw [world?_eq_seat] at hcw
        obtain ⟨⟨up, p⟩, seat, rfl⟩ := Option.map_eq_some_iff.mp hcw
        obtain rfl := (parent?_of_seat seat).symm.trans loose
        exact hs.free child p seat
      show cw.scale.quotient (Placement.divisors pw.scale) = _
      rw [own, large pw hpw]
      exact congrArg Vec.both hg.quotient
    constructor
    · intro x p seat
      rw [seats] at seat
      split at seat
      · cases seat
      · exact hs.free x p seat
    · intro x q p seat
      rw [seats] at seat
      split at seat
      · obtain ⟨-, rfl⟩ := Prod.mk.inj (Option.some.inj seat)
        exact usual
      · exact hs.attached x q p seat

end Sized

/-- Someone for a floor of a tower, so many times as large as usual. -/
def large (g : α) (i : Nat) : Spawn α := { Spawn.new (floorName i) with scale := Vec.both g }

theorem floors_large (g : α) : Floors (large g) := ⟨fun _ => rfl, fun _ => rfl⟩

/-- Large actors come on stage and are put on top of one another. -/
def tower (g : α) (n : Nat) : List (Move α) := crewOf (large g) (n + 1) ++ stacking n

theorem sized_crewOf (canvas : Canvas α) (physics : PhysicsConfig α) (g : α) (n : Nat) :
    Sized g ((Stage.new canvas physics).after (crewOf (large g) n)) := by
  induction n with
  | zero => exact ⟨fun _ _ seat => (by cases seat), fun _ _ _ seat => (by cases seat)⟩
  | succ n ih =>
    rw [crewOf, List.range_succ, List.map_append, after_append]
    show Sized g (Move.apply ((Stage.new canvas physics).after (crewOf (large g) n)) (.spawn _))
    rw [Move.apply]
    split
    · rename_i spawned
      exact ih.spawn rfl spawned
    · exact ih

theorem sized_stacking (canvas : Canvas α) (physics : PhysicsConfig α) {g : α} (hg : Factor g)
    {m n : Nat} (room : m ≤ n) (near : m ≤ linkLimit + 1) :
    Sized g ((Stage.new canvas physics).after (crewOf (large g) (n + 1) ++ stacking m)) := by
  induction m with
  | zero =>
    rw [stacking, List.range_zero, List.map_nil, List.append_nil]
    exact sized_crewOf canvas physics g (n + 1)
  | succ m ih =>
    have sized := ih (Nat.le_of_succ_le room) (Nat.le_of_succ_le near)
    obtain ⟨stacked, -⟩ := stacked_stacking canvas physics (floors_large g) (Nat.le_of_succ_le room)
    have tied := ((Reached.new canvas physics).after (crewOf (large g) (n + 1) ++ stacking m)).tied
    rw [after_stacking_succ]
    refine sized.attach hg ?_ fun w hw => ?_
    · rw [stacked.parent, if_neg (by omega)]
    · -- the floor below is not too high to see the ground
      rw [world?_eq_seat] at hw
      obtain ⟨⟨up, p⟩, seat, -⟩ := Option.map_eq_some_iff.mp hw
      obtain ⟨l, c⟩ := exists_chain stacked.forest tied.linked seat
      have long := stacked.length_chain (Nat.le_refl m) ((parent?_of_seat seat).symm ▸ c)
      rw [← world?_eq_seat, c.world?_eq_of_le seat (by omega)] at hw
      obtain rfl := Option.some.inj hw
      exact sized.scale_world hg seat c

/-- Whoever stands just too high on a tower of large actors does not see that they are large. -/
theorem scale_tower (canvas : Canvas α) (physics : PhysicsConfig α) {g : α} (hg : Factor g) :
    let s := (Stage.new canvas physics).after (tower g (linkLimit + 1))
    s.Forest ∧ ∃ a l w, s.actor? (linkLimit + 1) = some a ∧ s.Chain a.parent l ∧
      s.world? (linkLimit + 1) = some w ∧ w.scale = Vec.both Scalar.one ∧
      (a.placement.outOf l).scale = Vec.both g := by
  intro s
  obtain ⟨stacked, crewed⟩ : Stacked (linkLimit + 1) s ∧ Crewed (linkLimit + 2) s :=
    stacked_stacking canvas physics (floors_large g) (Nat.le_refl _)
  have sized : Sized g s := sized_stacking canvas physics hg (Nat.le_refl _) (Nat.le_refl _)
  have tied : s.Tied := ((Reached.new canvas physics).after _).tied
  obtain ⟨a, ha⟩ := Option.isSome_iff_exists.mp (crewed.live (linkLimit + 1) (Nat.lt_succ_self _))
  have seat : s.seat? (linkLimit + 1) = some (a.parent, a.placement) := by
    rw [seat?, ha]
    rfl
  obtain ⟨l, c⟩ := exists_chain stacked.forest tied.linked seat
  have parent := parent?_of_seat seat
  have long : l.length = linkLimit + 1 := stacked.length_chain (Nat.le_refl _) (parent ▸ c)
  refine ⟨stacked.forest, a, l, _, ha, c, c.world?_eq seat, ?_, sized.scale_world hg seat c⟩
  -- the highest is attached, and so of the usual scale
  have attached : a.parent = some linkLimit := by
    rw [← parent, stacked.parent, if_pos (by omega)]
    rfl
  refine (sized.scale_outOf hg c (sized.attached _ linkLimit _ (attached ▸ seat))).2 linkLimit ?_
  omega

end

/-- The highest of sixty-six actors, all twice as large as usual, is not where its chain puts it. -/
theorem not_world?_tower :
    let s := (Stage.new (α := Float32) ⟨800, 600⟩ .usual).after (tower (Scalar.ofInt 2) 65)
    s.Forest ∧ ¬∀ h a l, s.actor? h = some a → s.Chain a.parent l →
      s.world? h = some (a.placement.outOf l) := by
  intro s
  have double : Factor (Scalar.ofInt 2 : Float32) := ⟨rfl, rfl, rfl⟩
  obtain ⟨forest, a, l, w, ha, c, hw, usual, large⟩ :=
    scale_tower (α := Float32) ⟨800, 600⟩ .usual double
  refine ⟨forest, fun seen => ?_⟩
  have whole := seen _ a l ha c
  have same : w = a.placement.outOf l := Option.some.inj (hw.symm.trans whole)
  rw [same, large] at usual
  exact absurd (congrArg Vec.x usual) (by decide)

end Stage

end BlockStage
