/-
  Reframing: actors that are read in another frame and should be where they were.

  1. **Specification** — an attached actor should be where it was, and an actor that is put somewhere
     should be there, up to whole turns (`Placement.Same`).  Arithmetic is exact here.

  2. **What is stored** — the placement on the stage, seen from what the frames on the new way up come
     to together (`world?_attach`, `world?_setWorld`).

  3. **The crux** — but where an actor is follows from its frames one by one.  Rotation and scale do
     not mind; the offset does, and so all depends on whether it lies straight
     (`reframed_of_levels`).  It does wherever no frame with unlike scales has something turned in it.

  4. **The gap** — someone who is turned in a frame that is wider than high cannot take anybody on
     without moving them (`not_reframed_nested`).
-/
import BlockStage.Proofs.Stage.Chain

namespace BlockStage

/-- The same place and scale, and the same rotation up to whole turns. -/
structure Placement.Same (p w : Placement ℝ) : Prop where
  offset : p.offset = w.offset
  rotation : (p.rotation : Real.Angle) = w.rotation
  scale : p.scale = w.scale

/-- Wrapping an angle takes off whole turns. -/
theorem coe_wrapAngle (r : ℝ) : ((wrapAngle r : ℝ) : Real.Angle) = r := by
  have turns : wrapAngle r = r - ⌊(r + Real.pi) / (2 * Real.pi)⌋ * (2 * Real.pi) := by
    show r + Real.pi - 2 * Real.pi * ((⌊(r + Real.pi) / (2 * Real.pi)⌋ : ℤ) : ℝ) - Real.pi = _
    ring
  rw [turns, Real.Angle.angle_eq_iff_two_pi_dvd_sub]
  refine ⟨-⌊(r + Real.pi) / (2 * Real.pi)⌋, ?_⟩
  push_cast
  ring

namespace Stage

variable {α : Type} {s t : Stage α} {n : Nat} {h : Handle}

/-! ## Levels -/

/-- Everyone has fewer ancestors than that. -/
def Levels (s : Stage α) (n : Nat) : Prop := ∀ h, s.above n h = none

namespace Levels

theorem above (flat : s.Levels n) {m : Nat} (le : n ≤ m) (h : Handle) : s.above m h = none := by
  obtain ⟨k, rfl⟩ := Nat.exists_eq_add_of_le le
  rw [above_add, flat h, Option.bind_none]

/-- Where the way up is over after so many links it leads back to nobody. -/
theorem forest (flat : s.Levels n) : s.Forest := by
  intro k h again
  have round : ∀ m, s.above (m * (k + 1)) h = some h := by
    intro m
    induction m with
    | zero =>
      rw [Nat.zero_mul]
      rfl
    | succ m ih => rw [Nat.succ_mul, above_add, ih, Option.bind_some, again]
  have ended := flat.above (Nat.le_mul_of_pos_right n (Nat.succ_pos k)) h
  rw [round n] at ended
  cases ended

/-- Chains are no longer than there are levels. -/
theorem length_le (flat : s.Levels n) {link : Option Handle} {l : List (Placement α)}
    (c : s.Chain link l) : l.length ≤ n := by
  refine (c.length_le_iff n).mpr ?_
  cases link with
  | none => rfl
  | some h => exact flat h

end Levels

/-- Taking links away brings nobody more ancestors. -/
theorem Trims.levels (k : Trims s t) (flat : s.Levels n) : t.Levels n := by
  intro h
  refine Option.eq_none_iff_forall_not_mem.mpr fun x met => ?_
  have before := k.above met
  rw [flat h] at before
  cases before

/-! ## What is stored -/

section
variable [Scalar α]

theorem seat?_carryBody (s : Stage α) (h x : Handle) : (s.carryBody h).seat? x = s.seat? x := by
  rw [carryBody]
  split
  · exact s.seat?_modify_same h x fun _ => rfl
  · rfl

/-- Who is put somewhere is seated there as seen from the parent, and nobody else is moved. -/
theorem seat?_setWorld {w : Placement α} (done : (s.setWorld h w).1 = true) (x : Handle) :
    (s.setWorld h w).2.seat? x
      = if x = h then some (s.parent? h, s.inFrame h { w with rotation := wrapAngle w.rotation })
        else s.seat? x := by
  by_cases refused : (!w.isFinite || (s.actor? h).isNone) = true
  · rw [setWorld, if_pos refused] at done
    cases done
  · have live : (s.actor? h).isNone = false := by
      rw [Bool.or_eq_true, not_or] at refused
      exact Bool.eq_false_iff.mpr refused.2
    obtain ⟨a, ha⟩ := Option.isSome_iff_exists.mp (Option.isNone_eq_false_iff.mp live)
    rw [setWorld, if_neg refused]
    refine (seat?_carryBody _ h x).trans ?_
    rw [seat?, actor?_modify]
    by_cases same : x = h
    · rw [if_pos (beq_iff_eq.mpr same), if_pos same, parent?, ha]
      rfl
    · rw [if_neg fun k => same (eq_of_beq k), if_neg same]
      rfl

end

section
variable {s : Stage ℝ} {l : List (Placement ℝ)} {w : Placement ℝ}

/-- Someone is where the own frame and the frames above come to together. -/
theorem world?_eq_frameOf (c : s.Chain (some h) l) (short : l.length ≤ linkLimit) :
    s.world? h = some (Placement.frameOf l) := by
  cases c with
  | link seat rest =>
    rw [rest.world?_eq_of_le seat (Nat.le_of_succ_le short), Placement.frameOf_cons]

/-- What is read in the frame of someone's parent is seen from all the frames together. -/
theorem inFrame_eq (c : s.Chain (s.parent? h) l) (short : l.length ≤ linkLimit) (w : Placement ℝ) :
    s.inFrame h w = (Placement.frameOf l).seenFrom w := by
  rw [inFrame]
  cases link : s.parent? h with
  | none =>
    rw [link] at c
    cases c
    exact (Placement.unit_seenFrom w).symm
  | some parent =>
    rw [link] at c
    rw [Option.bind_some, world?_eq_frameOf c short]

/-- **Where an attached actor is**: seen from its new frames together, and carried out of each. -/
theorem world?_attach (linked : s.Linked) (flat : s.Levels linkLimit) {child parent : Handle}
    (ok : (s.attach child parent).1 = .ok ()) :
    ∃ w l, s.world? child = some w ∧ s.Chain (some parent) l ∧
      (s.attach child parent).2.world? child = some (((Placement.frameOf l).seenFrom w).outOf l) := by
  obtain ⟨cw, pw, hcw, hpw, avoids, seats⟩ := seat?_attach ok
  obtain ⟨l, c⟩ : ∃ l, s.Chain (some parent) l := by
    refine chain_of_above linked (fun h same => ?_) (n := linkLimit) ?_
    · rw [← Option.some.inj same, ← s.isSome_world?, hpw]
      rfl
    · rw [Option.bind_some, flat parent]
  have short := flat.length_le c
  obtain rfl := Option.some.inj (hpw.symm.trans (world?_eq_frameOf c short))
  refine ⟨cw, l, hcw, c, ?_⟩
  -- the child is nowhere on the way up from its new parent, so that has not changed
  have kept : (s.attach child parent).2.Chain (some parent) l := by
    refine c.congr fun n x up => ?_
    rw [seats, if_neg]
    rintro rfl
    rcases Nat.lt_or_ge (linkLimit + 1) n with far | near
    · rw [Option.bind_some, flat.above (by omega)] at up
      cases up
    · exact avoids n near up
  have seat := seats child
  rw [if_pos rfl] at seat
  exact kept.world?_eq_of_le seat short

/-- **Where someone is who has been put somewhere**: seen from the frames together, and carried out of
    each. -/
theorem world?_setWorld (linked : s.Linked) (flat : s.Levels linkLimit)
    (done : (s.setWorld h w).1 = true) :
    ∃ l, s.Chain (s.parent? h) l ∧ (s.setWorld h w).2.world? h
      = some (((Placement.frameOf l).seenFrom { w with rotation := wrapAngle w.rotation }).outOf l) := by
  have seats := seat?_setWorld done
  have up : ∀ n, (s.parent? h).bind (s.above n) = s.above (n + 1) h := fun _ => rfl
  obtain ⟨l, c⟩ : ∃ l, s.Chain (s.parent? h) l := by
    refine chain_of_above linked (fun p same => linked.parent_live same) (n := linkLimit) ?_
    rw [up, flat.above (Nat.le_succ _)]
  have short := flat.length_le c
  refine ⟨l, c, ?_⟩
  -- nobody is on the own way up
  have kept : (s.setWorld h w).2.Chain (s.parent? h) l := by
    refine c.congr fun n x on => ?_
    rw [seats, if_neg]
    rintro rfl
    exact flat.forest n x on
  have seat := seats h
  rw [if_pos rfl, inFrame_eq c short] at seat
  exact kept.world?_eq_of_le seat short

/-! ## The result -/

/-- **Who stays in place when it is read in another frame.**  Arithmetic being exact, and nobody having
    as many ancestors as placements are composed with: as long as what the frames on the new way up
    come to together is wide enough to divide by, an attached actor is where it was, and an actor
    that is put somewhere is there, exactly if the place lies straight in those frames.  Every place
    does if each of them scales both axes alike or has nothing turned in it. -/
theorem reframed_of_levels (hs : s.Reached) (flat : s.Levels linkLimit) :
    (∀ child parent, (s.attach child parent).1 = .ok () →
      ∃ w l, s.world? child = some w ∧ s.Chain (some parent) l ∧ ((Placement.frameOf l).Wide →
        ((s.attach child parent).2.world? child = some w ↔ Placement.Straight l w) ∧
        (Placement.Plumb 0 l → (s.attach child parent).2.world? child = some w))) ∧
    ∀ h w, (s.setWorld h w).1 = true →
      ∃ l w', s.Chain (s.parent? h) l ∧ (s.setWorld h w).2.world? h = some w' ∧
        ((Placement.frameOf l).Wide →
          (w'.Same w ↔ Placement.Straight l w) ∧ (Placement.Plumb 0 l → w'.Same w)) := by
  have linked := hs.tied.linked
  constructor
  · intro child parent ok
    obtain ⟨w, l, hw, c, now⟩ := world?_attach linked flat ok
    refine ⟨w, l, hw, c, fun wide => ?_⟩
    have straight_iff : (s.attach child parent).2.world? child = some w ↔ Placement.Straight l w := by
      obtain ⟨rotation, scale, offset⟩ := Placement.outOf_seenFrom wide w
      rw [now, Option.some.injEq, ← offset]
      refine ⟨congrArg Placement.offset, fun placed => ?_⟩
      generalize ((Placement.frameOf l).seenFrom w).outOf l = w' at placed rotation scale
      show Placement.mk w'.offset w'.rotation w'.scale = w
      rw [placed, rotation, scale]
    exact ⟨straight_iff, fun plumb => straight_iff.mpr (plumb.straight w)⟩
  · intro h w done
    obtain ⟨l, c, now⟩ := world?_setWorld linked flat done
    refine ⟨l, _, c, now, fun wide => ?_⟩
    obtain ⟨rotation, scale, offset⟩ :=
      Placement.outOf_seenFrom wide { w with rotation := wrapAngle w.rotation }
    -- how it is turned does not matter for whether it lies straight
    have straight_iff : (((Placement.frameOf l).seenFrom { w with rotation := wrapAngle w.rotation }).outOf
        l).Same w ↔ Placement.Straight l w := by
      refine ⟨fun same => offset.mp same.offset, fun straight => ⟨offset.mpr straight, ?_, scale⟩⟩
      rw [rotation]
      exact coe_wrapAngle w.rotation
    exact ⟨straight_iff, fun plumb => straight_iff.mpr (plumb.straight w)⟩

end

/-! ## Someone turned in a broad frame -/

/-- So far to the right of the middle of the hall, so turned, and so many times as wide as high. -/
noncomputable def spot (x degrees width : ℤ) : Placement ℝ :=
  ⟨hall.canvas.toPixels ⟨x, 0⟩, Canvas.rotationToPixels degrees, ⟨width, 1⟩⟩

/-- Someone comes on stage there. -/
noncomputable def comer (id : String) (x degrees width : ℤ) : Op ℝ :=
  .spawn { Spawn.new id with position := ⟨x, 0⟩, rotation := degrees, scale := ⟨width, 1⟩ }

/-- Three actors, the first twice as wide as high, and the second attached to it and turned; the third
    stands apart. -/
noncomputable def nested : Stage ℝ :=
  hall.perform [comer "g" 0 0 2, comer "p" 0 90 1, comer "c" 10 0 1, .attach 1 0]

/-- The frame of the first. -/
noncomputable def broad : Placement ℝ := spot 0 0 2

/-- The frame of the second, inside that of the first. -/
noncomputable def turned : Placement ℝ := broad.seenFrom (spot 0 90 1)

theorem reached_nested : nested.Reached := (Reached.new _ _).perform _

theorem seat?_nested (h : Handle) :
    nested.seat? h
      = if h = 0 then some (none, broad) else if h = 1 then some (some 0, turned)
        else if h = 2 then some (none, spot 10 0 1) else none := by
  match h with
  | 0 => rfl
  | 1 => rfl
  | 2 => rfl
  | h + 3 => rfl

theorem levels_nested : nested.Levels linkLimit := by
  have up : ∀ h, nested.parent? h = if h = 1 then some 0 else none := by
    intro h
    rw [parent?_eq_seat, seat?_nested]
    match h with
    | 0 => rfl
    | 1 => rfl
    | 2 => rfl
    | h + 3 => rfl
  have two : nested.Levels 2 := by
    intro h
    rw [above, up]
    split
    · rw [Option.bind_some, above, up]
      rfl
    · rfl
  exact fun h => two.above (by decide) h

theorem chain_broad : nested.Chain (some 0) [broad] := .link (seat?_nested 0) .root

theorem chain_turned : nested.Chain (some 1) [turned, broad] := .link (seat?_nested 1) chain_broad

theorem world?_apart : nested.world? 2 = some (spot 10 0 1) := by
  rw [world?_eq_seat, seat?_nested]
  rfl

theorem wide_spot (x degrees : ℤ) {width : ℤ} (positive : 1 ≤ width) :
    (spot x degrees width).Wide := by
  have enough : ∀ a : ℝ, 1 ≤ a → (2⁻¹ ^ 23 : ℝ) ≤ |a| := by
    intro a ha
    have small : (2⁻¹ ^ 23 : ℝ) ≤ 1 := by norm_num
    exact small.trans (ha.trans (le_abs_self a))
  have cast : (1 : ℝ) ≤ width := by exact_mod_cast positive
  exact ⟨enough width cast, enough 1 (le_refl 1)⟩

theorem wide_broad : broad.Wide := wide_spot 0 0 (by decide)

/-- Together the two frames come to where the second was before it was attached. -/
theorem frameOf_turned : Placement.frameOf [turned, broad] = spot 0 90 1 := by
  rw [Placement.frameOf_cons]
  exact Placement.compose_seenFrom wide_broad _

theorem wide_turned : (Placement.frameOf [turned, broad]).Wide := by
  rw [frameOf_turned]
  exact wide_spot 0 90 (le_refl 1)

theorem rotation_quarter (x width : ℤ) : (spot x 90 width).rotation = -(Real.pi / 2) := by
  show -(((90 : ℤ) : ℝ) * (Real.pi / 180)) = -(Real.pi / 2)
  push_cast
  ring

theorem rotation_turned : turned.rotation = -(Real.pi / 2) := by
  have level : broad.rotation = 0 := by
    show -(((0 : ℤ) : ℝ) * (Real.pi / 180)) = 0
    push_cast
    ring
  show (spot 0 90 1).rotation - broad.rotation = -(Real.pi / 2)
  rw [rotation_quarter, level, sub_zero]

theorem scale_turned : turned.scale.times broad.scale = ⟨(1 : ℤ), 1⟩ :=
  Placement.quotient_times_of_wide wide_broad (spot 0 90 1).scale

/-- What is to the right of the second lies along its second axis, and is stretched as if it lay along
    the first. -/
theorem not_straight_turned : ¬Placement.Straight [turned, broad] (spot 10 0 1) := by
  intro straight
  have way := Placement.bend_seenFrom wide_turned (spot 10 0 1)
  rw [Placement.Straight] at straight
  generalize ((Placement.frameOf [turned, broad]).seenFrom (spot 10 0 1)).offset = u at straight way
  rw [frameOf_turned] at straight way
  have along : u.y = 10 := by
    have x := congrArg Vec.x way
    rw [Placement.bend, rotation_quarter] at x
    have across : Real.cos (-(Real.pi / 2)) * (u.x * (1 : ℤ)) - Real.sin (-(Real.pi / 2)) * (u.y * 1)
        = (10 : ℤ) + hall.canvas.width * Scalar.half - ((0 : ℤ) + hall.canvas.width * Scalar.half) := x
    rw [Real.cos_neg, Real.sin_neg, Real.cos_pi_div_two, Real.sin_pi_div_two] at across
    push_cast at across
    linarith
  -- the frames could be taken together here
  have together : broad.bend (turned.bend u) = (broad.compose turned).bend u := by
    have whole : broad.compose turned = spot 0 90 1 := Placement.compose_seenFrom wide_broad _
    rw [whole]
    exact straight
  have x := congrArg Vec.x ((Placement.bend_compose_eq_iff broad turned u).mp together)
  rw [rotation_turned] at x
  have stretched :
      (Real.cos (-(Real.pi / 2)) * (u.x * turned.scale.x)
          - Real.sin (-(Real.pi / 2)) * (u.y * turned.scale.y)) * (2 : ℤ)
        = Real.cos (-(Real.pi / 2)) * (u.x * turned.scale.x * (2 : ℤ))
          - Real.sin (-(Real.pi / 2)) * (u.y * turned.scale.y * 1) := x
  have high : turned.scale.y * 1 = 1 := congrArg Vec.y scale_turned
  rw [mul_one] at high
  rw [Real.cos_neg, Real.sin_neg, Real.cos_pi_div_two, Real.sin_pi_div_two, along, high] at stretched
  norm_num at stretched

/-- Whoever is put on the first, in whose frame nothing is turned, stays in place, however broad that
    is; and the second can be put anywhere in it. -/
theorem reframed_of_levels_nested :
    nested.Reached ∧ nested.Levels linkLimit ∧
      (nested.attach 2 0).2.world? 2 = some (spot 10 0 1) ∧
      ∃ w', (nested.setWorld 1 (spot 10 0 1)).2.world? 1 = some w' ∧ w'.Same (spot 10 0 1) := by
  obtain ⟨attached, put⟩ := reframed_of_levels reached_nested levels_nested
  have wide : (Placement.frameOf [broad]).Wide := by
    rw [Placement.frameOf_cons]
    exact wide_broad
  have plumb : Placement.Plumb 0 [broad] := ⟨.inr Real.sin_zero, trivial⟩
  refine ⟨reached_nested, levels_nested, ?_, ?_⟩
  · obtain ⟨w, l, hw, c, stays⟩ := attached 2 0 rfl
    obtain rfl := c.unique chain_broad
    obtain rfl := Option.some.inj (hw.symm.trans world?_apart)
    exact (stays wide).2 plumb
  · obtain ⟨l, w', c, hw', stays⟩ := put 1 (spot 10 0 1) rfl
    obtain rfl := c.unique chain_broad
    exact ⟨w', hw', (stays wide).2 plumb⟩

/-- Whoever is put on the second is moved by that, though nobody has a scale of nought. -/
theorem not_reframed_nested :
    nested.Reached ∧ nested.Levels linkLimit ∧
      (∀ h up p, nested.seat? h = some (up, p) → p.scale.x ≠ 0 ∧ p.scale.y ≠ 0) ∧
      (nested.attach 2 1).1 = .ok () ∧ (nested.attach 2 1).2.world? 2 ≠ nested.world? 2 := by
  refine ⟨reached_nested, levels_nested, fun h up p seat => ?_, rfl, fun same => ?_⟩
  · rw [seat?_nested] at seat
    split at seat
    · obtain ⟨-, rfl⟩ := Prod.mk.inj (Option.some.inj seat)
      exact ⟨Placement.ne_zero_of_le wide_broad.x, Placement.ne_zero_of_le wide_broad.y⟩
    split at seat
    · obtain ⟨-, rfl⟩ := Prod.mk.inj (Option.some.inj seat)
      -- both come to one when they are scaled by the first
      have x : turned.scale.x * (2 : ℤ) = (1 : ℤ) := congrArg Vec.x scale_turned
      have y : turned.scale.y * 1 = 1 := congrArg Vec.y scale_turned
      rw [Int.cast_one] at x
      exact ⟨left_ne_zero_of_mul (x ▸ one_ne_zero), left_ne_zero_of_mul (y ▸ one_ne_zero)⟩
    split at seat
    · obtain ⟨-, rfl⟩ := Prod.mk.inj (Option.some.inj seat)
      have wide := wide_spot 10 0 (le_refl 1)
      exact ⟨Placement.ne_zero_of_le wide.x, Placement.ne_zero_of_le wide.y⟩
    · cases seat
  · have done : (nested.attach 2 1).1 = .ok () := rfl
    obtain ⟨w, l, hw, c, now⟩ := world?_attach reached_nested.tied.linked levels_nested done
    obtain rfl := c.unique chain_turned
    obtain rfl := Option.some.inj (hw.symm.trans world?_apart)
    have still := congrArg Placement.offset (Option.some.inj ((now.symm.trans same).trans hw))
    exact not_straight_turned ((Placement.outOf_seenFrom wide_turned _).2.2.mp still)

end Stage

end BlockStage
