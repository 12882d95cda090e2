/-
  The forest: when following parents never leads back.

  1. **Specification (`Stage.Forest`)** — `above n h` is who is met `n` links up from an actor; on a
     forest nobody is met again on the way up from themselves.

  2. **The search** — attaching looks for the child on the way up from its new parent, but only so
     far (`isAncestor_iff`).  So it refuses to close the cycles of at most `linkLimit + 2` actors,
     and closes the longer ones.

  3. **Steps** — coming, leaving, detaching and clearing only take links away (`Trims`), and what
     trims a forest leaves a forest.  Attaching adds one link, and the crux is that this makes a
     cycle exactly if the child was on the way up from the parent before (`forest_relink_iff`).

  4. **Runs** — so a run keeps the forest at every moment exactly if it never attaches someone to a
     parent that follows them over more links than the search looks at (`forest_run_iff`).  A tower
     of actors shows that this can happen (`not_forest_ring`).
-/
import BlockStage.Proofs.Run
import BlockStage.Proofs.Stage.Roster
import Mathlib.Data.Nat.Find

namespace BlockStage

namespace Stage

variable {α : Type} {s t : Stage α}

/-! ## Links -/

/-- A change that leaves the link of an actor alone leaves all links alone. -/
theorem parent?_modify_same (s : Stage α) (x h : Handle) {f : Actor α → Actor α}
    (hf : ∀ a, (f a).parent = a.parent) : (s.modify x f).parent? h = s.parent? h := by
  rw [parent?, actor?_modify, parent?]
  split
  · rename_i same
    rw [eq_of_beq same]
    cases s.actor? x with
    | none => rfl
    | some a => exact hf a
  · rfl

/-- Who is met that many links up from an actor. -/
def above (s : Stage α) : Nat → Handle → Option Handle
  | 0, h => some h
  | n + 1, h => (s.parent? h).bind (s.above n)

theorem above_add (s : Stage α) (m n : Nat) (h : Handle) :
    s.above (m + n) h = (s.above m h).bind (s.above n) := by
  induction m generalizing h with
  | zero =>
    rw [Nat.zero_add]
    rfl
  | succ m ih =>
    rw [Nat.succ_add, above, above, Option.bind_assoc]
    exact congrArg (s.parent? h).bind (funext ih)

/-- Following parents from an actor never leads back to it. -/
def Forest (s : Stage α) : Prop := ∀ n h, s.above (n + 1) h ≠ some h

/-! ## The search for an ancestor -/

theorem meets_iff (s : Stage α) (candidate : Handle) (steps : Nat) (link : Option Handle) :
    s.meets candidate steps link = true ↔ ∃ n < steps, link.bind (s.above n) = some candidate := by
  induction steps generalizing link with
  | zero =>
    constructor
    · intro h
      cases h
    · rintro ⟨n, hn, -⟩
      exact absurd hn (Nat.not_lt_zero n)
  | succ steps ih =>
    cases link with
    | none =>
      constructor
      · intro h
        cases h
      · rintro ⟨n, -, h⟩
        cases h
    | some h =>
      rw [meets, Bool.or_eq_true, beq_iff_eq, ih]
      constructor
      · rintro (rfl | ⟨n, hn, found⟩)
        · exact ⟨0, Nat.succ_pos steps, rfl⟩
        · exact ⟨n + 1, Nat.succ_lt_succ hn, found⟩
      · rintro ⟨n, hn, found⟩
        cases n with
        | zero => exact .inl (Option.some.inj found)
        | succ n => exact .inr ⟨n, Nat.lt_of_succ_lt_succ hn, found⟩

/-- An ancestor is found if it is at most one link further up than placements are composed. -/
theorem isAncestor_iff (s : Stage α) (candidate h : Handle) :
    s.isAncestor candidate h = true ↔
      ∃ n, 1 ≤ n ∧ n ≤ linkLimit + 1 ∧ s.above n h = some candidate := by
  rw [isAncestor, meets_iff]
  constructor
  · rintro ⟨n, hn, found⟩
    exact ⟨n + 1, Nat.succ_pos n, hn, found⟩
  · rintro ⟨n, pos, le, found⟩
    obtain ⟨m, rfl⟩ := Nat.exists_eq_add_of_le' pos
    exact ⟨m, le, found⟩

/-! ## Taking links away -/

/-- No link has come, and those that are left lead where they led. -/
def Trims (s t : Stage α) : Prop := ∀ h p, t.parent? h = some p → s.parent? h = some p

namespace Trims

theorem refl (s : Stage α) : Trims s s := fun _ _ h => h

theorem trans {u : Stage α} (h : Trims s t) (k : Trims t u) : Trims s u :=
  fun x p hp => h x p (k x p hp)

/-- All links are as they were. -/
theorem of_eq (h : ∀ x, t.parent? x = s.parent? x) : Trims s t := fun x _ hp => h x ▸ hp

theorem foldl {β : Type} {f : Stage α → β → Stage α} (hf : ∀ s x, Trims s (f s x)) (l : List β)
    (s : Stage α) : Trims s (l.foldl f s) := by
  induction l generalizing s with
  | nil => exact .refl s
  | cons x l ih => exact (hf s x).trans (ih (f s x))

theorem above {n : Nat} {h x : Handle} (k : Trims s t) (ht : t.above n h = some x) :
    s.above n h = some x := by
  induction n generalizing h with
  | zero => exact ht
  | succ n ih =>
    obtain ⟨p, hp, up⟩ := Option.bind_eq_some_iff.mp ht
    rw [Stage.above, k h p hp]
    exact ih up

/-- What is trimmed stays a forest. -/
theorem forest (k : Trims s t) (hs : s.Forest) : t.Forest := fun n h again => hs n h (k.above again)

end Trims

/-! ## Adding a link -/

/-- The way up does not change as long as it avoids the one whose link does. -/
theorem above_eq_of_avoids {child : Handle} (agree : ∀ x, x ≠ child → t.parent? x = s.parent? x)
    {n : Nat} {h : Handle} (avoids : ∀ m < n, s.above m h ≠ some child) :
    t.above n h = s.above n h := by
  induction n generalizing h with
  | zero => rfl
  | succ n ih =>
    have other : h ≠ child := fun same => avoids 0 (Nat.succ_pos n) (congrArg some same)
    rw [above, above, agree h other]
    cases link : s.parent? h with
    | none => rfl
    | some p =>
      refine ih fun m hm up => avoids (m + 1) (Nat.succ_lt_succ hm) ?_
      rw [above, link]
      exact up

/-- **A new link closes a cycle exactly if the child was on the way up from the parent.** -/
theorem forest_relink_iff {child parent : Handle} (hs : s.Forest)
    (relinked : ∀ x, t.parent? x = if x = child then some parent else s.parent? x) :
    t.Forest ↔ ∀ n, s.above n parent ≠ some child := by
  classical
  have agree : ∀ x, x ≠ child → t.parent? x = s.parent? x := fun x other => by
    rw [relinked, if_neg other]
  have linked : ∀ n, t.above (n + 1) child = t.above n parent := fun n => by
    rw [above, relinked, if_pos rfl, Option.bind_some]
  -- up to where a way first meets the child it is the same before and after
  have first : ∀ h, (∃ n, s.above n h = some child) →
      ∃ n, (∀ m < n, s.above m h ≠ some child) ∧ s.above n h = some child ∧
        t.above n h = some child := by
    intro h met
    have least := fun m (hm : m < Nat.find met) => Nat.find_min met hm
    refine ⟨Nat.find met, least, Nat.find_spec met, ?_⟩
    rw [above_eq_of_avoids agree least]
    exact Nat.find_spec met
  constructor
  · intro ht n met
    obtain ⟨m, -, -, up⟩ := first parent ⟨n, met⟩
    exact ht m child ((linked m).trans up)
  · intro never n h again
    by_cases met : ∃ m, s.above m h = some child
    · obtain ⟨m, before, old, new⟩ := first h met
      rcases Nat.lt_or_ge n m with short | long
      · -- the way leads back before it meets the child, so it was a cycle before
        refine hs n h ?_
        rw [← above_eq_of_avoids agree fun k hk => before k (Nat.lt_of_lt_of_le hk short)]
        exact again
      · -- the way leads over the new link, so the parent was below the child before
        obtain ⟨k, rfl⟩ := Nat.exists_eq_add_of_le long
        have back : t.above k parent = some h := by
          have round : (t.above m h).bind (t.above (k + 1)) = some h := by
            rw [← above_add]
            exact again
          rw [new] at round
          exact (linked k).symm.trans round
        rw [above_eq_of_avoids agree fun i _ => never i] at back
        refine never (k + m) ?_
        rw [above_add, back]
        exact old
    · refine hs n h ?_
      rw [← above_eq_of_avoids agree fun m _ up => met ⟨m, up⟩]
      exact again

/-! ## Coming and leaving -/

section
variable [Scalar α]

theorem parent?_detach (s : Stage α) (child h : Handle) :
    (s.detach child).2.parent? h = if h = child then none else s.parent? h := by
  rw [detach]
  split
  · rename_i parent _
    show (s.release child parent).parent? h = _
    rw [release, parent?, actor?_modify]
    by_cases same : h = child
    · rw [if_pos same, if_pos (beq_iff_eq.mpr same)]
      cases (s.modify parent _).actor? child with
      | none => rfl
      | some a => rfl
    · rw [if_neg same, if_neg (fun h => same (eq_of_beq h))]
      exact s.parent?_modify_same parent h fun _ => rfl
  · rename_i unlinked
    show s.parent? h = _
    by_cases same : h = child
    · rw [if_pos same, same, unlinked]
    · rw [if_neg same]

theorem trims_detach (s : Stage α) (child : Handle) : Trims s (s.detach child).2 := by
  intro h p hp
  rw [parent?_detach] at hp
  split at hp
  · cases hp
  · exact hp

omit [Scalar α] in
theorem trims_dismiss (s : Stage α) (h : Handle) : Trims s (s.dismiss h) := by
  intro x p hp
  have found : (s.dismiss h).actor? x = if x == h then none else s.actor? x :=
    s.actors.get?_erase h x
  rw [parent?, found] at hp
  split at hp
  · cases hp
  · exact hp

theorem trims_enablePhysics (s : Stage α) (h : Handle) (settings : BodySettings α) :
    Trims s (s.enablePhysics h settings).2 := by
  rw [enablePhysics]
  split
  · split
    · exact .refl s
    · exact .of_eq fun x => parent?_modify_same _ h x fun _ => rfl
  · exact .refl s

/-- Who comes on stage is attached to nobody. -/
theorem trims_spawn {d : Spawn α} {h : Handle} (ht : s.spawn d = .ok (h, t)) : Trims s t := by
  obtain ⟨-, rfl⟩ := eq_of_spawn ht
  let u := s.receive (s.actorOf d)
  have placed : Trims s u := by
    intro x p hp
    rw [parent?, actor?_receive] at hp
    split at hp
    · cases hp
    · exact hp
  have embodied : Trims u (u.embody s.nextHandle d.body) :=
    embody_keeps (.refl u) (u.trims_enablePhysics _) d.body
  exact placed.trans embodied

theorem trims_despawn (s : Stage α) (id : String) : Trims s (s.despawn id).2 := by
  rw [despawn]
  split
  · exact .refl s
  · rename_i h hf
    let u : Stage α :=
      { s with index := s.index.erase id, ids := s.ids.filter fun other => other != id }
    have same : Trims s u := .refl s
    have released : Trims u ((u.children h).foldl (fun s child => (s.detach child).2) u) :=
      .foldl (fun s child => s.trims_detach child) _ u
    -- the bodies of physics have no links
    have alone := (same.trans released).trans (trims_detach _ h)
    exact alone.trans (trims_dismiss (disembody _ h) h)

omit [Scalar α] in
theorem trims_clear (s : Stage α) : Trims s s.clear :=
  Trims.foldl (fun s h => s.trims_dismiss h) s.index.values s

/-! ## Attaching -/

theorem isSome_world? (s : Stage α) (h : Handle) : (s.world? h).isSome = (s.actor? h).isSome :=
  Option.isSome_map

theorem isSome_actor?_detach (s : Stage α) (child h : Handle) :
    ((s.detach child).2.actor? h).isSome = (s.actor? h).isSome := by
  have same := (s.calm_detach child).role h
  rw [← Option.isSome_map (f := Actor.role), same, Option.isSome_map]

theorem parent?_link (s : Stage α) {child : Handle} (parent : Handle) (cw pw : Placement α)
    (live : (s.actor? child).isSome = true) (h : Handle) :
    (s.link child parent cw pw).parent? h = if h = child then some parent else s.parent? h := by
  obtain ⟨a, ha⟩ := Option.isSome_iff_exists.mp live
  rw [link, parent?_modify_same _ parent h (by intro a; rfl), parent?, actor?_modify, ha]
  by_cases same : h = child
  · rw [if_pos same, if_pos (beq_iff_eq.mpr same)]
    rfl
  · rw [if_neg same, if_neg (fun h => same (eq_of_beq h))]
    rfl

/-- An attempt to attach a child to a parent, its answer, and the stage after it. -/
inductive AttachStep (s : Stage α) (child parent : Handle) :
    Except AttachError Unit → Stage α → Prop where
  | itself (same : child = parent) : AttachStep s child parent (.error .itself) s
  | cycle (apart : child ≠ parent) (found : s.isAncestor child parent = true) :
    AttachStep s child parent (.error .cycle) s
  | notLive (apart : child ≠ parent) (free : s.isAncestor child parent = false)
    (gone : ¬((s.actor? child).isSome = true ∧ (s.actor? parent).isSome = true)) :
    AttachStep s child parent (.error .notLive) (s.detach child).2
  | linked {t : Stage α} (apart : child ≠ parent) (free : s.isAncestor child parent = false)
    (live : (s.actor? child).isSome = true ∧ (s.actor? parent).isSome = true)
    (relinked : ∀ x, t.parent? x = if x = child then some parent else s.parent? x) :
    AttachStep s child parent (.ok ()) t

theorem attach_step (s : Stage α) (child parent : Handle) :
    AttachStep s child parent (s.attach child parent).1 (s.attach child parent).2 := by
  have liveChild := isSome_world? (s.detach child).2 child
  have liveParent := isSome_world? (s.detach child).2 parent
  rw [isSome_actor?_detach] at liveChild liveParent
  rw [attach]
  split
  · exact .itself ‹_›
  rename_i apart
  split
  · exact .cycle apart ‹_›
  rename_i found
  have free : s.isAncestor child parent = false := Bool.eq_false_iff.mpr found
  dsimp only
  split
  · rename_i cw pw hcw hpw
    rw [hcw] at liveChild
    rw [hpw] at liveParent
    refine .linked apart free ⟨liveChild.symm, liveParent.symm⟩ fun x => ?_
    rw [parent?_link _ parent cw pw ((s.isSome_actor?_detach _ _).trans liveChild.symm),
      parent?_detach]
    split <;> rfl
  · rename_i missing
    refine .notLive apart free fun live => ?_
    obtain ⟨cw, hcw⟩ := Option.isSome_iff_exists.mp (liveChild.trans live.1)
    obtain ⟨pw, hpw⟩ := Option.isSome_iff_exists.mp (liveParent.trans live.2)
    exact missing cw pw hcw hpw

omit [Scalar α] in
/-- Whom the search finds is so far up, or it is asked about an actor itself. -/
theorem isAncestor_iff_of_ne {child parent : Handle} (apart : child ≠ parent) :
    s.isAncestor child parent = true ↔ ∃ n ≤ linkLimit + 1, s.above n parent = some child := by
  rw [isAncestor_iff]
  constructor
  · rintro ⟨n, -, le, up⟩
    exact ⟨n, le, up⟩
  · rintro ⟨n, le, up⟩
    refine ⟨n, Nat.pos_of_ne_zero fun zero => ?_, le, up⟩
    rw [zero] at up
    exact apart (Option.some.inj up).symm

/-- Who is live and is not found is linked. -/
theorem relinked_of_attach {child parent : Handle} (apart : child ≠ parent)
    (free : s.isAncestor child parent = false)
    (live : (s.actor? child).isSome = true ∧ (s.actor? parent).isSome = true) (x : Handle) :
    (s.attach child parent).2.parent? x = if x = child then some parent else s.parent? x := by
  have step := s.attach_step child parent
  generalize s.attach child parent = r at step ⊢
  obtain ⟨answer, t⟩ := r
  cases step with
  | itself same => exact absurd same apart
  | cycle _ found => exact absurd found (Bool.eq_false_iff.mp free)
  | notLive _ _ gone => exact absurd live gone
  | linked _ _ _ relinked => exact relinked x

/-- **How far attaching looks**: it refuses to close just those cycles that it finds within the
    limit. -/
theorem attach_cycle_iff (s : Stage α) (child parent : Handle) :
    (s.attach child parent).1 = .error .cycle ↔
      child ≠ parent ∧ ∃ n ≤ linkLimit + 1, s.above n parent = some child := by
  have step := s.attach_step child parent
  generalize s.attach child parent = r at step ⊢
  obtain ⟨answer, t⟩ := r
  cases step with
  | itself same => exact iff_of_false (fun h => (by cases h)) fun h => h.1 same
  | cycle apart found => exact iff_of_true rfl ⟨apart, (isAncestor_iff_of_ne apart).mp found⟩
  | notLive apart free gone =>
    refine iff_of_false (fun h => (by cases h)) fun h => ?_
    exact Bool.eq_false_iff.mp free ((isAncestor_iff_of_ne apart).mpr h.2)
  | linked apart free live relinked =>
    refine iff_of_false (fun h => (by cases h)) fun h => ?_
    exact Bool.eq_false_iff.mp free ((isAncestor_iff_of_ne apart).mpr h.2)

/-- Is someone attached to a parent that follows them from further away than the search looks? -/
def Slips (s : Stage α) (child parent : Handle) : Prop :=
  ((s.actor? child).isSome = true ∧ (s.actor? parent).isSome = true) ∧
    (∃ n, s.above n parent = some child) ∧ ∀ n ≤ linkLimit + 1, s.above n parent ≠ some child

/-- **The step that can go wrong**: attaching leaves a forest unless the search falls short. -/
theorem forest_attach_iff {child parent : Handle} (hs : s.Forest) :
    (s.attach child parent).2.Forest ↔ ¬s.Slips child parent := by
  have step := s.attach_step child parent
  generalize s.attach child parent = r at step ⊢
  obtain ⟨answer, t⟩ := r
  cases step with
  | itself same =>
    exact iff_of_true hs fun slip => slip.2.2 0 (Nat.zero_le _) (congrArg some same.symm)
  | cycle apart found =>
    obtain ⟨n, le, up⟩ := (isAncestor_iff_of_ne apart).mp found
    exact iff_of_true hs fun slip => slip.2.2 n le up
  | notLive apart free gone =>
    exact iff_of_true ((s.trims_detach child).forest hs) fun slip => gone slip.1
  | linked apart free live relinked =>
    rw [forest_relink_iff hs relinked]
    constructor
    · intro never slip
      obtain ⟨n, up⟩ := slip.2.1
      exact never n up
    · -- whoever is found within reach of the search would have been refused
      refine fun sound n up => sound ⟨live, ⟨n, up⟩, fun m le up => ?_⟩
      exact Bool.eq_false_iff.mp free ((isAncestor_iff_of_ne apart).mpr ⟨m, le, up⟩)

/-! ## Runs -/

/-- What can be done to a stage that has to do with its links. -/
inductive Move (α : Type) where
  | spawn (d : Spawn α)
  | despawn (id : String)
  | attach (child parent : Handle)
  | detach (child : Handle)
  | clear

/-- The stage after a move, also one that is refused. -/
def Move.apply (s : Stage α) : Move α → Stage α
  | .spawn d =>
    match s.spawn d with
    | .ok (_, t) => t
    | .error _ => s
  | .despawn id => (s.despawn id).2
  | .attach child parent => (s.attach child parent).2
  | .detach child => (s.detach child).2
  | .clear => s.clear

/-- The stage after some moves. -/
def after (s : Stage α) (moves : List (Move α)) : Stage α := moves.foldl Move.apply s

theorem after_append (s : Stage α) (l k : List (Move α)) : s.after (l ++ k) = (s.after l).after k :=
  List.foldl_append

omit [Scalar α] in
theorem forest_new (canvas : Canvas α) (physics : PhysicsConfig α) :
    (Stage.new canvas physics).Forest := fun _ _ again => (by cases again)

/-- Is the move an attachment for which the search falls short? -/
def SlipsOn (s : Stage α) : Move α → Prop
  | .attach child parent => s.Slips child parent
  | _ => False

/-- **The step lemma**: a move leaves a forest unless the search falls short. -/
theorem forest_apply_iff (hs : s.Forest) (m : Move α) : (m.apply s).Forest ↔ ¬s.SlipsOn m := by
  cases m with
  | spawn d =>
    refine iff_of_true ?_ id
    rw [Move.apply]
    split
    · rename_i ht
      exact (trims_spawn ht).forest hs
    · exact hs
  | despawn id => exact iff_of_true ((s.trims_despawn id).forest hs) fun no => no
  | attach child parent => exact forest_attach_iff hs
  | detach child => exact iff_of_true ((s.trims_detach child).forest hs) fun no => no
  | clear => exact iff_of_true (s.trims_clear.forest hs) fun no => no

/-- **The run lemma**: a forest at every moment, or a first move at which the search falls short. -/
theorem forest_after_iff (hs : s.Forest) (moves : List (Move α)) :
    (∀ done, done <+: moves → (s.after done).Forest) ↔
      ∀ done m, done ++ [m] <+: moves → ¬(s.after done).SlipsOn m :=
  always_foldl_iff (P := Forest) (f := Move.apply) (fun now m => forest_apply_iff now m) hs moves

/-- **When the links of a stage form a forest.**  At every moment of a run following parents never
    leads back, exactly if the run never attaches an actor to a parent that follows it over more
    links than the search looks at; of the other cycles attaching refuses every one. -/
theorem forest_run_iff (canvas : Canvas α) (physics : PhysicsConfig α) (moves : List (Move α)) :
    ((∀ done, done <+: moves → ((Stage.new canvas physics).after done).Forest) ↔
      ∀ done child parent, done ++ [.attach child parent] <+: moves →
        ¬((Stage.new canvas physics).after done).Slips child parent) ∧
    ∀ done, done <+: moves → ∀ child parent,
      (((Stage.new canvas physics).after done).attach child parent).1 = .error .cycle ↔
        child ≠ parent ∧ ∃ n ≤ linkLimit + 1,
          ((Stage.new canvas physics).after done).above n parent = some child := by
  refine ⟨?_, fun done _ child parent => attach_cycle_iff _ child parent⟩
  rw [forest_after_iff (forest_new canvas physics)]
  constructor
  · exact fun sound done child parent before => sound done (.attach child parent) before
  · intro sound done m before
    cases m with
    | attach child parent => exact sound done child parent before
    | _ => exact fun no => no

end

/-! ## Towers -/

/-- The id of one floor of a tower. -/
def floorName (i : Nat) : String := String.ofList (List.replicate (i + 1) 'e')

theorem floorName_injective {i j : Nat} (h : floorName i = floorName j) : i = j := by
  have lengths := congrArg String.length h
  rw [floorName, floorName, String.length_ofList, String.length_ofList, List.length_replicate,
    List.length_replicate] at lengths
  exact Nat.succ.inj lengths

theorem not_blank_floorName (i : Nat) : isBlankText (floorName i) = false := by
  rw [isBlankText, floorName, String.toList_ofList, List.replicate_succ, List.all_cons]
  rfl

/-- A tower of which so many floors above the ground are attached, each to the one below it. -/
structure Stacked (m : Nat) (s : Stage α) : Prop where
  parent : ∀ h : Nat, s.parent? h = if 0 < h ∧ h ≤ m then some (h - 1) else none

namespace Stacked

variable {m : Nat}

/-- On a tower the way leads down floor by floor. -/
theorem above (hs : Stacked m s) {n h x : Nat} (up : s.above n h = some x) : x + n = h := by
  induction n generalizing h with
  | zero => exact (Option.some.inj up).symm
  | succ n ih =>
    obtain ⟨(p : Nat), hp, rest⟩ := Option.bind_eq_some_iff.mp up
    rw [hs.parent] at hp
    split at hp
    · have last := ih rest
      have below : h - 1 = p := Option.some.inj hp
      omega
    · cases hp

theorem above_of_le (hs : Stacked m s) {n h : Nat} (top : h ≤ m) (le : n ≤ h) :
    s.above n h = some (h - n) := by
  induction n generalizing h with
  | zero => rfl
  | succ n ih =>
    have pos : 0 < h := by omega
    have below : h - 1 ≤ m := by omega
    rw [Stage.above, hs.parent, if_pos ⟨pos, top⟩, Option.bind_some, ih below (by omega)]
    exact congrArg some (by omega)

theorem forest (hs : Stacked m s) : s.Forest := fun n (h : Nat) again => by
  have := hs.above again
  omega

end Stacked

section
variable [Scalar α]

/-- So many actors come on stage as they are described, and none is attached. -/
def crewOf (d : Nat → Spawn α) (n : Nat) : List (Move α) := (List.range n).map fun i => .spawn (d i)

/-- So many actors come on stage, and none is attached. -/
def crew (n : Nat) : List (Move α) := (List.range n).map fun i => .spawn (Spawn.new (floorName i))

/-- Each of the actors is put on the one before it, from the bottom up. -/
def stacking (n : Nat) : List (Move α) := (List.range n).map fun i => .attach (i + 1) i

/-- Actors are put on top of one another, and at last the lowest is put on the highest. -/
def ring (n : Nat) : List (Move α) := crew (n + 1) ++ stacking n ++ [.attach 0 n]

/-- A stage with so many actors, each under the handle of its number. -/
structure Crewed (n : Nat) (s : Stage α) : Prop where
  orderly : s.Orderly
  next : s.nextHandle = n
  ids : s.ids = (List.range n).map floorName
  live : ∀ h < n, (s.actor? h).isSome = true

omit [Scalar α] in
/-- Each of them bears the name of its floor and comes without a body. -/
structure Floors (d : Nat → Spawn α) : Prop where
  named : ∀ i, (d i).id = floorName i
  bare : ∀ i, (d i).body = none

theorem floors_new : Floors fun i => Spawn.new (α := α) (floorName i) := ⟨fun _ => rfl, fun _ => rfl⟩

/-- One more actor comes on stage. -/
theorem Crewed.spawn {n : Nat} (hs : Crewed n s) {d : Nat → Spawn α} (hd : Floors d) :
    ∃ t, s.spawn (d n) = .ok (n, t) ∧ Crewed (n + 1) t := by
  have free : s.index.contains (d n).id = false := by
    rw [hd.named]
    refine Bool.eq_false_iff.mpr fun taken => ?_
    have listed := (hs.orderly.listed _).mpr taken
    rw [hs.ids] at listed
    obtain ⟨i, hi, same⟩ := List.mem_map.mp listed
    rw [floorName_injective same] at hi
    exact Nat.lt_irrefl n (List.mem_range.mp hi)
  have nonblank : isBlankText (d n).id = false := hd.named n ▸ not_blank_floorName n
  have spawned := spawn_of_bare nonblank free (hd.bare n)
  rw [hs.next] at spawned
  have new := spawned_of_spawn hs.orderly.fresh spawned
  refine ⟨_, spawned, new.orderly hs.orderly, new.next, ?_, fun h hh => ?_⟩
  · rw [new.ids, hs.ids, hd.named, List.range_succ, List.map_append]
    rfl
  · rw [← Option.isSome_map (f := Actor.role), new.role hs.orderly]
    by_cases last : (h == n) = true
    · rw [if_pos last]
      rfl
    · rw [if_neg last, Option.isSome_map]
      have other : h ≠ n := fun same => last (beq_iff_eq.mpr same)
      exact hs.live h (by omega)

theorem crewed_crewOf (canvas : Canvas α) (physics : PhysicsConfig α) {d : Nat → Spawn α}
    (hd : Floors d) (n : Nat) :
    Crewed n ((Stage.new canvas physics).after (crewOf d n)) ∧
      ∀ h, ((Stage.new canvas physics).after (crewOf d n)).parent? h = none := by
  induction n with
  | zero =>
    refine ⟨⟨.new canvas physics, rfl, rfl, fun h hh => absurd hh (Nat.not_lt_zero h)⟩, ?_⟩
    exact fun h => rfl
  | succ n ih =>
    obtain ⟨crewed, alone⟩ := ih
    obtain ⟨t, spawned, next⟩ := crewed.spawn hd
    have reached : (Stage.new canvas physics).after (crewOf d (n + 1)) = t := by
      rw [crewOf, List.range_succ, List.map_append, after_append]
      show Move.apply ((Stage.new canvas physics).after (crewOf d n)) (.spawn _) = t
      rw [Move.apply, spawned]
    rw [reached]
    refine ⟨next, fun h => Option.eq_none_iff_forall_not_mem.mpr fun p hp => ?_⟩
    have old := trims_spawn spawned h p hp
    rw [alone] at old
    cases old

/-- One more floor is attached. -/
theorem Stacked.attach {m n : Nat} (hs : Stacked m s) (crewed : Crewed (n + 1) s) (room : m < n) :
    Stacked (m + 1) (s.attach (m + 1) m).2 ∧ Crewed (n + 1) (s.attach (m + 1) m).2 := by
  have free : s.isAncestor (m + 1) m = false := by
    refine Bool.eq_false_iff.mpr fun found => ?_
    obtain ⟨k, -, -, up⟩ := (s.isAncestor_iff (m + 1) m).mp found
    have := hs.above up
    omega
  have relinked := relinked_of_attach (Nat.succ_ne_self m) free
    ⟨crewed.live _ (by omega), crewed.live _ (by omega)⟩
  have kept := (s.calm_attach (m + 1) m).toSameCast
  refine ⟨⟨fun (h : Nat) => ?_⟩, ⟨crewed.orderly.sameCast kept, kept.next.trans crewed.next,
    kept.ids.trans crewed.ids, fun h hh => ?_⟩⟩
  · rw [relinked, hs.parent]
    by_cases top : h = m + 1
    · rw [if_pos top, if_pos (by omega), top]
      rfl
    · rw [if_neg top]
      have same : (0 < h ∧ h ≤ m) ↔ (0 < h ∧ h ≤ m + 1) := by omega
      exact if_congr same rfl rfl
  · rw [← Option.isSome_map (f := Actor.role), kept.role, Option.isSome_map]
    exact crewed.live h hh

theorem after_stacking_succ (s : Stage α) (moves : List (Move α)) (m : Nat) :
    s.after (moves ++ stacking (m + 1)) = ((s.after (moves ++ stacking m)).attach (m + 1) m).2 := by
  rw [stacking, List.range_succ, List.map_append, ← List.append_assoc, after_append]
  rfl

theorem stacked_stacking (canvas : Canvas α) (physics : PhysicsConfig α) {d : Nat → Spawn α}
    (hd : Floors d) {m n : Nat} (room : m ≤ n) :
    Stacked m ((Stage.new canvas physics).after (crewOf d (n + 1) ++ stacking m)) ∧
      Crewed (n + 1) ((Stage.new canvas physics).after (crewOf d (n + 1) ++ stacking m)) := by
  induction m with
  | zero =>
    obtain ⟨crewed, alone⟩ := crewed_crewOf canvas physics hd (n + 1)
    rw [stacking, List.range_zero, List.map_nil, List.append_nil]
    refine ⟨⟨fun (h : Nat) => (alone h).trans ?_⟩, crewed⟩
    rw [if_neg (by omega)]
  | succ m ih =>
    obtain ⟨stacked, crewed⟩ := ih (Nat.le_of_succ_le room)
    rw [after_stacking_succ]
    exact stacked.attach crewed room

/-- **A ring of actors is closed exactly if it has more links than the search looks at.** -/
theorem forest_ring_iff (canvas : Canvas α) (physics : PhysicsConfig α) (n : Nat) :
    ((Stage.new canvas physics).after (ring n)).Forest ↔ n ≤ linkLimit + 1 := by
  obtain ⟨stacked, crewed⟩ := stacked_stacking canvas physics floors_new (Nat.le_refl n)
  rw [ring, after_append]
  refine (forest_attach_iff stacked.forest).trans ?_
  have up := stacked.above_of_le (Nat.le_refl n) (Nat.le_refl n)
  rw [Nat.sub_self] at up
  constructor
  · intro sound
    by_contra far
    refine sound ⟨⟨crewed.live 0 (by omega), crewed.live n (by omega)⟩, ⟨n, up⟩, fun k le again => ?_⟩
    have := stacked.above again
    omega
  · intro near slip
    exact slip.2.2 n near up

end

/-- Sixty-seven actors follow one another round. -/
theorem not_forest_ring :
    ¬((Stage.new (α := Float32) ⟨800, 600⟩ .usual).after (ring 66)).Forest := fun forest =>
  absurd ((forest_ring_iff _ _ 66).mp forest) (by decide)

end Stage

end BlockStage
