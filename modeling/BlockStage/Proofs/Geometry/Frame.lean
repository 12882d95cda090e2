/-
  Frames: placements that are read inside one another.

  1. **Specification (`Placement.outOf`)** — a placement is carried out of some frames one by one, the
     innermost first.  What the frames come to together (`frameOf`) is where that puts something that
     lies in the middle of the innermost, neither turned nor scaled.

  2. **One frame** — what has been seen from a frame and is carried out of it is what it was, unless
     the frame is too small to divide by (`compose_seenFrom`).

  3. **The crux (`outOf_seenFrom`)** — what has been seen from several frames together and is carried
     out of them one by one has the rotation and the scale that it had.  But on the way in its offset
     was unbent by all of them at once, and on the way out it is bent by each in turn; the two undo
     each other exactly if it lies `Straight`.

  4. **When everything lies straight** — bending commutes with turning exactly if both axes are scaled
     alike or nothing is turned over (`bend_compose_iff`), so it does not matter whether frames are
     taken together if this is so at each of them (`Plumb.straight`).
-/
import BlockStage.Proofs.Geometry.Exact
import BlockStage.Geometry.Placement

namespace BlockStage

/-- A placement carried out of some frames, the innermost first. -/
def Placement.outOf {α : Type} [Scalar α] (p : Placement α) (l : List (Placement α)) : Placement α :=
  l.foldl (fun p frame => frame.compose p) p

theorem Placement.outOf_append {α : Type} [Scalar α] (p : Placement α) (l k : List (Placement α)) :
    p.outOf (l ++ k) = (p.outOf l).outOf k := List.foldl_append

/-! ## Turning -/

namespace Vec

noncomputable instance : Zero (Vec ℝ) := ⟨⟨0, 0⟩⟩
noncomputable instance : Neg (Vec ℝ) := ⟨fun v => ⟨-v.x, -v.y⟩⟩

noncomputable instance : AddCommGroup (Vec ℝ) where
  add_assoc u v w := congrArg₂ Vec.mk (add_assoc u.x v.x w.x) (add_assoc u.y v.y w.y)
  add_comm u v := congrArg₂ Vec.mk (add_comm u.x v.x) (add_comm u.y v.y)
  zero_add v := congrArg₂ Vec.mk (zero_add v.x) (zero_add v.y)
  add_zero v := congrArg₂ Vec.mk (add_zero v.x) (add_zero v.y)
  sub_eq_add_neg u v := congrArg₂ Vec.mk (sub_eq_add_neg u.x v.x) (sub_eq_add_neg u.y v.y)
  neg_add_cancel v := congrArg₂ Vec.mk (neg_add_cancel v.x) (neg_add_cancel v.y)
  nsmul := nsmulRec
  zsmul := zsmulRec

theorem rotate_zero (v : Vec ℝ) : (ofAngle 0).rotate v = v := by
  show Vec.mk (Real.cos 0 * v.x - Real.sin 0 * v.y) (Real.sin 0 * v.x + Real.cos 0 * v.y) = v
  rw [Real.cos_zero, Real.sin_zero]
  exact congrArg₂ Vec.mk (by ring) (by ring)

/-- Turning twice is turning by the sum. -/
theorem rotate_rotate (a b : ℝ) (v : Vec ℝ) :
    (ofAngle a).rotate ((ofAngle b).rotate v) = (ofAngle (a + b)).rotate v := by
  show Vec.mk
      (Real.cos a * (Real.cos b * v.x - Real.sin b * v.y)
        - Real.sin a * (Real.sin b * v.x + Real.cos b * v.y))
      (Real.sin a * (Real.cos b * v.x - Real.sin b * v.y)
        + Real.cos a * (Real.sin b * v.x + Real.cos b * v.y))
    = Vec.mk (Real.cos (a + b) * v.x - Real.sin (a + b) * v.y)
      (Real.sin (a + b) * v.x + Real.cos (a + b) * v.y)
  rw [Real.cos_add, Real.sin_add]
  exact congrArg₂ Vec.mk (by ring) (by ring)

theorem rotate_inj {a : ℝ} {v w : Vec ℝ} :
    (ofAngle a).rotate v = (ofAngle a).rotate w ↔ v = w := by
  refine ⟨fun h => ?_, congrArg _⟩
  have back := congrArg (ofAngle (-a)).rotate h
  rw [rotate_rotate, rotate_rotate, neg_add_cancel, rotate_zero, rotate_zero] at back
  exact back

theorem rotate_add (u v w : Vec ℝ) : u.rotate (v + w) = u.rotate v + u.rotate w := by
  show Vec.mk (u.x * (v.x + w.x) - u.y * (v.y + w.y)) (u.y * (v.x + w.x) + u.x * (v.y + w.y))
    = Vec.mk ((u.x * v.x - u.y * v.y) + (u.x * w.x - u.y * w.y))
      ((u.y * v.x + u.x * v.y) + (u.y * w.x + u.x * w.y))
  exact congrArg₂ Vec.mk (by ring) (by ring)

theorem add_times (v w k : Vec ℝ) : (v + w).times k = v.times k + w.times k :=
  congrArg₂ Vec.mk (add_mul v.x w.x k.x) (add_mul v.y w.y k.y)

theorem times_assoc (u v w : Vec ℝ) : (u.times v).times w = u.times (v.times w) :=
  congrArg₂ Vec.mk (mul_assoc u.x v.x w.x) (mul_assoc u.y v.y w.y)

theorem times_one (v : Vec ℝ) : v.times ⟨1, 1⟩ = v :=
  congrArg₂ Vec.mk (mul_one v.x) (mul_one v.y)

end Vec

namespace Placement

variable {frame p q w : Placement ℝ} {l : List (Placement ℝ)}

/-! ## One frame -/

/-- What a frame makes of an offset: it scales and turns it. -/
noncomputable def bend (frame : Placement ℝ) (v : Vec ℝ) : Vec ℝ :=
  (Vec.ofAngle frame.rotation).rotate (v.times frame.scale)

theorem bend_add (frame : Placement ℝ) (v w : Vec ℝ) :
    frame.bend (v + w) = frame.bend v + frame.bend w := by
  rw [bend, Vec.add_times, Vec.rotate_add, bend, bend]

theorem bend_zero (frame : Placement ℝ) : frame.bend 0 = 0 := by
  have twice := bend_add frame 0 0
  rw [add_zero] at twice
  exact left_eq_add.mp twice

/-- A frame whose axes are both scaled by enough to divide by. -/
structure Wide (frame : Placement ℝ) : Prop where
  x : Scalar.tiny ≤ |frame.scale.x|
  y : Scalar.tiny ≤ |frame.scale.y|

theorem divisor_of_le {a : ℝ} (h : Scalar.tiny ≤ |a|) : divisor a = a := by
  show (if decide (|a| < Scalar.tiny) = true then Scalar.tiny else a) = a
  rw [if_neg]
  exact fun less => absurd h (not_le.mpr (of_decide_eq_true less))

theorem ne_zero_of_le {a : ℝ} (h : Scalar.tiny ≤ |a|) : a ≠ 0 := by
  intro zero
  have small : (2⁻¹ ^ 23 : ℝ) ≤ |a| := h
  rw [zero, abs_zero] at small
  have positive : (0 : ℝ) < 2⁻¹ ^ 23 := by positivity
  exact absurd small (not_le.mpr positive)

theorem quotient_times_of_wide (wide : frame.Wide) (v : Vec ℝ) :
    (v.quotient (divisors frame.scale)).times frame.scale = v := by
  have undone : ∀ a b : ℝ, Scalar.tiny ≤ |b| → a / divisor b * b = a := by
    intro a b hb
    rw [divisor_of_le hb]
    exact div_mul_cancel₀ a (ne_zero_of_le hb)
  exact congrArg₂ Vec.mk (undone v.x frame.scale.x wide.x) (undone v.y frame.scale.y wide.y)

/-- Seen from a frame and bent by it again, the way from the frame's own offset is what it was. -/
theorem bend_seenFrom (wide : frame.Wide) (w : Placement ℝ) :
    frame.bend (frame.seenFrom w).offset = w.offset - frame.offset := by
  show (Vec.ofAngle frame.rotation).rotate
    ((((Vec.ofAngle (-frame.rotation)).rotate (w.offset - frame.offset)).quotient
      (divisors frame.scale)).times frame.scale) = _
  rw [quotient_times_of_wide wide, Vec.rotate_rotate, add_neg_cancel, Vec.rotate_zero]

/-- **Carrying a placement out of a frame undoes seeing it from there.** -/
theorem compose_seenFrom (wide : frame.Wide) (w : Placement ℝ) :
    frame.compose (frame.seenFrom w) = w := by
  have offset : frame.offset + frame.bend (frame.seenFrom w).offset = w.offset := by
    rw [bend_seenFrom wide, add_sub_cancel]
  have rotation : frame.rotation + (w.rotation - frame.rotation) = w.rotation :=
    add_sub_cancel frame.rotation w.rotation
  have scale : frame.scale.times (w.scale.quotient (divisors frame.scale)) = w.scale :=
    (congrArg₂ Vec.mk (mul_comm _ _) (mul_comm _ _)).trans (quotient_times_of_wide wide w.scale)
  show Placement.mk (frame.offset + frame.bend (frame.seenFrom w).offset)
    (frame.rotation + (w.rotation - frame.rotation))
    (frame.scale.times (w.scale.quotient (divisors frame.scale))) = w
  rw [offset, rotation, scale]

/-! ## Several frames -/

/-- Something in the middle of a frame, neither turned nor scaled. -/
def unit : Placement ℝ := ⟨⟨0, 0⟩, 0, ⟨1, 1⟩⟩

theorem bend_unit (v : Vec ℝ) : unit.bend v = v := (Vec.rotate_zero _).trans v.times_one

theorem unit_compose (p : Placement ℝ) : unit.compose p = p := by
  have offset : unit.offset + unit.bend p.offset = p.offset := by
    rw [bend_unit]
    exact zero_add p.offset
  have rotation : unit.rotation + p.rotation = p.rotation := zero_add p.rotation
  have scale : unit.scale.times p.scale = p.scale :=
    congrArg₂ Vec.mk (one_mul p.scale.x) (one_mul p.scale.y)
  show Placement.mk (unit.offset + unit.bend p.offset) (unit.rotation + p.rotation)
    (unit.scale.times p.scale) = p
  rw [offset, rotation, scale]

theorem wide_unit : unit.Wide := by
  have small : (2⁻¹ ^ 23 : ℝ) ≤ |1| := by norm_num
  exact ⟨small, small⟩

theorem unit_seenFrom (w : Placement ℝ) : unit.seenFrom w = w := by
  rw [← unit_compose (unit.seenFrom w), compose_seenFrom wide_unit]

/-- What some frames come to together, the innermost first. -/
noncomputable def frameOf (l : List (Placement ℝ)) : Placement ℝ := unit.outOf l

/-- What some frames make of an offset one by one, the innermost first. -/
noncomputable def bendOut (l : List (Placement ℝ)) (v : Vec ℝ) : Vec ℝ :=
  l.foldl (fun v frame => frame.bend v) v

/-- A frame that is all there is comes to itself. -/
theorem frameOf_cons (frame : Placement ℝ) (l : List (Placement ℝ)) :
    frameOf (frame :: l) = frame.outOf l := by
  have offset : frame.offset + frame.bend unit.offset = frame.offset :=
    (congrArg (frame.offset + ·) frame.bend_zero).trans (add_zero _)
  have rotation : frame.rotation + 0 = frame.rotation := add_zero _
  have same : frame.compose unit = frame := by
    show Placement.mk (frame.offset + frame.bend unit.offset) (frame.rotation + 0)
      (frame.scale.times ⟨1, 1⟩) = frame
    rw [offset, rotation, Vec.times_one]
  show (frame.compose unit).outOf l = frame.outOf l
  rw [same]

/-- What lies elsewhere in the innermost frame is turned and scaled by as much more outside, and the
    way to it is bent by the frames one by one. -/
theorem outOf_moved (l : List (Placement ℝ)) (q : Placement ℝ) (v : Vec ℝ) (r : ℝ) (k : Vec ℝ) :
    (Placement.mk (q.offset + v) (q.rotation + r) (q.scale.times k)).outOf l
      = ⟨(q.outOf l).offset + bendOut l v, (q.outOf l).rotation + r, (q.outOf l).scale.times k⟩ := by
  induction l generalizing q v with
  | nil => rfl
  | cons frame l ih =>
    have offset : frame.offset + frame.bend (q.offset + v)
        = (frame.compose q).offset + frame.bend v := by
      rw [bend_add, ← add_assoc]
      rfl
    have rotation : frame.rotation + (q.rotation + r) = (frame.compose q).rotation + r :=
      (add_assoc frame.rotation q.rotation r).symm
    have scale : frame.scale.times (q.scale.times k) = (frame.compose q).scale.times k :=
      (frame.scale.times_assoc q.scale k).symm
    have step : frame.compose ⟨q.offset + v, q.rotation + r, q.scale.times k⟩
        = ⟨(frame.compose q).offset + frame.bend v, (frame.compose q).rotation + r,
          (frame.compose q).scale.times k⟩ := by
      rw [← offset, ← rotation, ← scale]
      rfl
    show (frame.compose ⟨q.offset + v, q.rotation + r, q.scale.times k⟩).outOf l = _
    rw [step]
    exact ih (frame.compose q) (frame.bend v)

/-- **Frames add up**, but for the way to something that is not in their middle. -/
theorem outOf_eq (l : List (Placement ℝ)) (p : Placement ℝ) :
    p.outOf l = ⟨(frameOf l).offset + bendOut l p.offset, (frameOf l).rotation + p.rotation,
      (frameOf l).scale.times p.scale⟩ := by
  -- anything lies at its own placement from the middle
  have lies : Placement.mk (unit.offset + p.offset) (unit.rotation + p.rotation)
      (unit.scale.times p.scale) = p := by
    have composed := unit_compose p
    rw [← bend_unit p.offset]
    exact composed
  have carried := outOf_moved l unit p.offset p.rotation p.scale
  rw [lies] at carried
  exact carried

/-! ## Seen from several frames together -/

/-- Does it come to the same to be bent by some frames in turn and by all of them at once, for the way
    at which a placement is seen from them? -/
def Straight (l : List (Placement ℝ)) (w : Placement ℝ) : Prop :=
  bendOut l ((frameOf l).seenFrom w).offset = (frameOf l).bend ((frameOf l).seenFrom w).offset

/-- **Out of several frames**: what has been seen from them together keeps rotation and scale. -/
theorem outOf_seenFrom (wide : (frameOf l).Wide) (w : Placement ℝ) :
    (((frameOf l).seenFrom w).outOf l).rotation = w.rotation ∧
      (((frameOf l).seenFrom w).outOf l).scale = w.scale ∧
      ((((frameOf l).seenFrom w).outOf l).offset = w.offset ↔ Straight l w) := by
  have whole := compose_seenFrom wide w
  have rotation : (frameOf l).rotation + ((frameOf l).seenFrom w).rotation = w.rotation :=
    congrArg Placement.rotation whole
  have scale : (frameOf l).scale.times ((frameOf l).seenFrom w).scale = w.scale :=
    congrArg Placement.scale whole
  have offset : (frameOf l).offset + (frameOf l).bend ((frameOf l).seenFrom w).offset = w.offset :=
    congrArg Placement.offset whole
  rw [outOf_eq]
  refine ⟨rotation, scale, ?_⟩
  show (frameOf l).offset + bendOut l ((frameOf l).seenFrom w).offset = w.offset ↔ _
  rw [← offset, add_right_inj]
  exact Iff.rfl

/-! ## When everything lies straight -/

/-- Scaling commutes with turning if both axes are scaled alike, or for half turns. -/
theorem times_rotate {a : ℝ} {k : Vec ℝ} (free : k.x = k.y ∨ Real.sin a = 0) (u : Vec ℝ) :
    ((Vec.ofAngle a).rotate u).times k = (Vec.ofAngle a).rotate (u.times k) := by
  show Vec.mk ((Real.cos a * u.x - Real.sin a * u.y) * k.x)
      ((Real.sin a * u.x + Real.cos a * u.y) * k.y)
    = Vec.mk (Real.cos a * (u.x * k.x) - Real.sin a * (u.y * k.y))
      (Real.sin a * (u.x * k.x) + Real.cos a * (u.y * k.y))
  rcases free with alike | level
  · rw [alike]
    exact congrArg₂ Vec.mk (by ring) (by ring)
  · rw [level]
    exact congrArg₂ Vec.mk (by ring) (by ring)

/-- Being bent by two frames together is being scaled by the outer one too early. -/
theorem bend_compose_eq_iff (frame q : Placement ℝ) (v : Vec ℝ) :
    frame.bend (q.bend v) = (frame.compose q).bend v ↔
      ((Vec.ofAngle q.rotation).rotate (v.times q.scale)).times frame.scale
        = (Vec.ofAngle q.rotation).rotate ((v.times q.scale).times frame.scale) := by
  have swapped : v.times (frame.scale.times q.scale) = (v.times q.scale).times frame.scale := by
    rw [Vec.times_assoc]
    exact congrArg v.times (congrArg₂ Vec.mk (mul_comm _ _) (mul_comm _ _))
  show _ = (Vec.ofAngle (frame.rotation + q.rotation)).rotate (v.times (frame.scale.times q.scale)) ↔ _
  rw [swapped, ← Vec.rotate_rotate]
  exact Vec.rotate_inj

/-- **Which two frames may be taken together**: those of which the outer scales both axes alike, or
    the inner makes half turns only. -/
theorem bend_compose_iff (frame : Placement ℝ) (hq : q.scale.x ≠ 0) :
    (∀ v, frame.bend (q.bend v) = (frame.compose q).bend v) ↔
      frame.scale.x = frame.scale.y ∨ Real.sin q.rotation = 0 := by
  constructor
  · intro together
    -- the first axis of the inner frame already tells
    have axis := congrArg Vec.y ((bend_compose_eq_iff frame q ⟨1, 0⟩).mp (together _))
    have bent : (Real.sin q.rotation * (1 * q.scale.x) + Real.cos q.rotation * (0 * q.scale.y))
          * frame.scale.y
        = Real.sin q.rotation * (1 * q.scale.x * frame.scale.x)
          + Real.cos q.rotation * (0 * q.scale.y * frame.scale.y) := axis
    have product : q.scale.x * ((frame.scale.x - frame.scale.y) * Real.sin q.rotation) = 0 := by
      linarith
    rcases mul_eq_zero.mp ((mul_eq_zero_iff_left hq).mp product) with alike | level
    · exact .inl (sub_eq_zero.mp alike)
    · exact .inr level
  · exact fun free v => (bend_compose_eq_iff frame q v).mpr (times_rotate free _)

/-- At each of some frames both axes are scaled alike or what lies inside is not turned, up to half
    turns, by the given angle and the rotations of the frames farther in. -/
def Plumb (turned : ℝ) : List (Placement ℝ) → Prop
  | [] => True
  | frame :: l =>
    (frame.scale.x = frame.scale.y ∨ Real.sin turned = 0) ∧ Plumb (frame.rotation + turned) l

/-- Plumb frames may be taken together one after the other. -/
theorem Plumb.bendOut_bend (plumb : Plumb q.rotation l) (v : Vec ℝ) :
    bendOut l (q.bend v) = (q.outOf l).bend v := by
  induction l generalizing q with
  | nil => rfl
  | cons frame l ih =>
    obtain ⟨free, rest⟩ := plumb
    show bendOut l (frame.bend (q.bend v)) = ((frame.compose q).outOf l).bend v
    rw [(bend_compose_eq_iff frame q v).mpr (times_rotate free _)]
    exact ih rest

/-- **Plumb frames keep everything straight.** -/
theorem Plumb.straight (plumb : Plumb 0 l) (w : Placement ℝ) : Straight l w := by
  have together := Plumb.bendOut_bend (q := unit) plumb ((frameOf l).seenFrom w).offset
  rw [bend_unit] at together
  exact together

end Placement

end BlockStage
