/-
  Pointing: the exact test for a point, and the box around what is drawn.

  1. **Specification** — what is drawn of an actor with a costume is a rectangle about a middle
     (`Placement.middle`), which goes so far to either side (`Placement.span`), and is turned as the
     actor is.  Arithmetic is exact here.

  2. **Two readings** — the exact test brings the point into the frame of the costume and divides by the
     signed scale; the box carries the middle out of that frame and spans as far as the scale is large.
     Both can be read off the way from the middle to the point: turned back (`hits_iff`), or as it is
     (`contains_drawnBox_iff`).  Mirrored scales leave no trace in either.

  3. **The crux (`Vec.abs_rotate_le`)** — turning lends each coordinate of a way some of the other, in
     the same measure in which the box is widened.

  4. **The result (`drawnBounds?_of_isHit`)** — whoever is hit has the point in the box; and the box
     gives nothing away as long as nothing is turned, nor after any number of quarter turns
     (`hits_iff_contains_of_quarters`).
-/
import BlockStage.Proofs.Stage.Reframe
import BlockStage.Stage.Sensing

namespace BlockStage

/-! ## Ways -/

namespace Vec

/-- **Turning lends each coordinate some of the other.** -/
theorem abs_rotate_le (a : ℝ) (u : Vec ℝ) :
    |((ofAngle a).rotate u).x| ≤ |u.x| * |Real.cos a| + |u.y| * |Real.sin a| ∧
      |((ofAngle a).rotate u).y| ≤ |u.x| * |Real.sin a| + |u.y| * |Real.cos a| := by
  have across : ((ofAngle a).rotate u).x = u.x * Real.cos a - u.y * Real.sin a := by
    show Real.cos a * u.x - Real.sin a * u.y = _
    ring
  have along : ((ofAngle a).rotate u).y = u.x * Real.sin a + u.y * Real.cos a := by
    show Real.sin a * u.x + Real.cos a * u.y = _
    ring
  rw [across, along, ← abs_mul, ← abs_mul, ← abs_mul, ← abs_mul]
  exact ⟨abs_sub _ _, abs_add_le _ _⟩

/-- Quarter turns lend all or nothing. -/
theorem abs_rotate_of_quarters {a : ℝ} (quarters : Real.sin a = 0 ∨ Real.cos a = 0) (u : Vec ℝ) :
    |((ofAngle a).rotate u).x| = |u.x| * |Real.cos a| + |u.y| * |Real.sin a| ∧
      |((ofAngle a).rotate u).y| = |u.x| * |Real.sin a| + |u.y| * |Real.cos a| := by
  show |Real.cos a * u.x - Real.sin a * u.y| = _ ∧ |Real.sin a * u.x + Real.cos a * u.y| = _
  rcases quarters with level | upright
  · rw [level, abs_zero, zero_mul, zero_mul, sub_zero, zero_add, mul_zero, mul_zero, add_zero, zero_add,
      abs_mul, abs_mul]
    exact ⟨mul_comm _ _, mul_comm _ _⟩
  · rw [upright, abs_zero, zero_mul, zero_mul, zero_sub, add_zero, mul_zero, mul_zero, add_zero, zero_add,
      abs_neg, abs_mul, abs_mul]
    exact ⟨mul_comm _ _, mul_comm _ _⟩

end Vec

/-- A point is in a box about a middle if the way there is no longer than the box on either axis. -/
theorem Box.contains_around_iff (m half p : Vec ℝ) :
    (Box.around m half).contains p = true ↔ |(p - m).x| ≤ half.x ∧ |(p - m).y| ≤ half.y := by
  have within : ∀ a r b : ℝ, |b - a| ≤ r ↔ a - r ≤ b ∧ b ≤ a + r := by
    intro a r b
    rw [abs_le]
    constructor
    · rintro ⟨low, high⟩
      exact ⟨by linarith, by linarith⟩
    · rintro ⟨low, high⟩
      exact ⟨by linarith, by linarith⟩
  have sides : (Box.around m half).contains p = true ↔
      ((m.x - half.x ≤ p.x ∧ p.x ≤ m.x + half.x) ∧ m.y - half.y ≤ p.y) ∧ p.y ≤ m.y + half.y := by
    rw [contains, Bool.and_eq_true, Bool.and_eq_true, Bool.and_eq_true]
    exact and_congr (and_congr (and_congr decide_eq_true_iff decide_eq_true_iff) decide_eq_true_iff)
      decide_eq_true_iff
  rw [sides, and_assoc]
  exact (and_congr (within m.x half.x p.x) (within m.y half.y p.y)).symm

/-! ## What is drawn -/

namespace Placement

variable {w : Placement ℝ}

/-- The middle of what is drawn in the frame of a placement at an offset from its own middle. -/
noncomputable def middle (w : Placement ℝ) (offset : Vec ℝ) : Vec ℝ := w.offset + w.bend offset

/-- How far something of a size goes to either side of its middle. -/
noncomputable def span (w : Placement ℝ) (size : Vec ℝ) : Vec ℝ :=
  (size.times w.scale.abs).scale Scalar.half

/-- The way from the middle of what is drawn to a point, turned back. -/
noncomputable def wayTo (w : Placement ℝ) (offset p : Vec ℝ) : Vec ℝ :=
  (Vec.ofAngle (-w.rotation)).rotate (p - w.middle offset)

theorem rotate_wayTo (w : Placement ℝ) (offset p : Vec ℝ) :
    (Vec.ofAngle w.rotation).rotate (w.wayTo offset p) = p - w.middle offset := by
  rw [wayTo, Vec.rotate_rotate, add_neg_cancel, Vec.rotate_zero]

/-- In the frame of the placement the point is as far beyond the offset as the way tells. -/
theorem wayTo_add (w : Placement ℝ) (offset p : Vec ℝ) :
    w.wayTo offset p + offset.times w.scale = (Vec.ofAngle (-w.rotation)).rotate (p - w.offset) := by
  have turned : (Vec.ofAngle w.rotation).rotate (w.wayTo offset p + offset.times w.scale)
      = p - w.offset := by
    rw [Vec.rotate_add, rotate_wayTo]
    show p - (w.offset + w.bend offset) + w.bend offset = p - w.offset
    abel
  rw [← turned, Vec.rotate_rotate, neg_add_cancel, Vec.rotate_zero]

/-- Only the size of a scale counts for whether something scaled by it is near enough. -/
theorem abs_quotient_sub_le_iff {a o k n : ℝ} (large : Scalar.tiny ≤ |k|) :
    |(a + o * k) / divisor k - o| ≤ n * Scalar.half ↔ |a| ≤ n * |k| * Scalar.half := by
  have nonzero := ne_zero_of_le large
  have positive : 0 < |k| := abs_pos.mpr nonzero
  have near : (a + o * k) / divisor k - o = a / k := by
    rw [divisor_of_le large, add_div, mul_div_cancel_right₀ o nonzero, add_sub_cancel_right]
  rw [near, abs_div, div_le_iff₀ positive, mul_right_comm]

end Placement

namespace Stage

open Placement (middle span wayTo)

variable {w : Placement ℝ}

/-- **The exact test** looks at the way from the middle of what is drawn, turned back. -/
theorem hits_iff (wide : w.Wide) (c : Costume ℝ) (p : Vec ℝ) :
    hits c w p = true ↔ |(w.wayTo c.visibleOffset p).x| ≤ (w.span c.visibleSize).x ∧
      |(w.wayTo c.visibleOffset p).y| ≤ (w.span c.visibleSize).y := by
  rw [hits, ← w.wayTo_add c.visibleOffset p, Bool.and_eq_true]
  refine and_congr (decide_eq_true_iff.trans ?_) (decide_eq_true_iff.trans ?_)
  · exact Placement.abs_quotient_sub_le_iff wide.x
  · exact Placement.abs_quotient_sub_le_iff wide.y

/-- **The box** looks at the way from the same middle as it is. -/
theorem contains_drawnBox_iff {look : Look ℝ} {c : Costume ℝ} (worn : look.costume? = some c)
    (w : Placement ℝ) (p : Vec ℝ) :
    (drawnBox look w).contains p = true ↔
      |(p - w.middle c.visibleOffset).x| ≤ (w.span c.visibleSize).x * |Real.cos w.rotation|
          + (w.span c.visibleSize).y * |Real.sin w.rotation| ∧
        |(p - w.middle c.visibleOffset).y| ≤ (w.span c.visibleSize).x * |Real.sin w.rotation|
          + (w.span c.visibleSize).y * |Real.cos w.rotation| := by
  have box : drawnBox look w = Box.around (w.middle c.visibleOffset)
      ⟨(w.span c.visibleSize).x * |Real.cos w.rotation|
          + (w.span c.visibleSize).y * |Real.sin w.rotation|,
        (w.span c.visibleSize).x * |Real.sin w.rotation|
          + (w.span c.visibleSize).y * |Real.cos w.rotation|⟩ := by
    rw [drawnBox, Look.visualSize, worn]
    rfl
  rw [box]
  exact Box.contains_around_iff _ _ _

theorem contains_drawnBox_of_hits (wide : w.Wide) {look : Look ℝ} {c : Costume ℝ}
    (worn : look.costume? = some c) {p : Vec ℝ} (hit : hits c w p = true) :
    (drawnBox look w).contains p = true := by
  obtain ⟨across, along⟩ := (hits_iff wide c p).mp hit
  have turned := Vec.abs_rotate_le w.rotation (w.wayTo c.visibleOffset p)
  rw [w.rotate_wayTo] at turned
  rw [contains_drawnBox_iff worn]
  have cosine := abs_nonneg (Real.cos w.rotation)
  have sine := abs_nonneg (Real.sin w.rotation)
  exact ⟨turned.1.trans (add_le_add (mul_le_mul_of_nonneg_right across cosine)
      (mul_le_mul_of_nonneg_right along sine)),
    turned.2.trans (add_le_add (mul_le_mul_of_nonneg_right across sine)
      (mul_le_mul_of_nonneg_right along cosine))⟩

/-- **After quarter turns the box is exact.** -/
theorem hits_iff_contains_of_quarters (wide : w.Wide)
    (quarters : Real.sin w.rotation = 0 ∨ Real.cos w.rotation = 0) {look : Look ℝ} {c : Costume ℝ}
    (worn : look.costume? = some c) (p : Vec ℝ) :
    hits c w p = true ↔ (drawnBox look w).contains p = true := by
  have turned := Vec.abs_rotate_of_quarters quarters (w.wayTo c.visibleOffset p)
  rw [w.rotate_wayTo] at turned
  rw [hits_iff wide, contains_drawnBox_iff worn, turned.1, turned.2]
  -- one of sine and cosine is nought, and then the other has size one
  have round := Real.sin_sq_add_cos_sq w.rotation
  rcases quarters with level | upright
  · have one : |Real.cos w.rotation| = 1 := by
      rw [level, zero_pow two_ne_zero, zero_add] at round
      exact (pow_eq_one_iff_of_nonneg (abs_nonneg _) two_ne_zero).mp ((sq_abs _).trans round)
    rw [level, abs_zero, one]
    simp only [mul_zero, mul_one, add_zero, zero_add]
  · have one : |Real.sin w.rotation| = 1 := by
      rw [upright, zero_pow two_ne_zero, add_zero] at round
      exact (pow_eq_one_iff_of_nonneg (abs_nonneg _) two_ne_zero).mp ((sq_abs _).trans round)
    rw [upright, abs_zero, one]
    simp only [mul_zero, mul_one, add_zero, zero_add]
    exact and_comm

/-! ## The result -/

/-- **Whoever is hit has the point in the box around what is drawn.**  Arithmetic being exact, and the
    scale on the stage, mirrored or not, large enough to divide by: the box contains every point that
    hits, however the actor is turned, and no others if it is not turned. -/
theorem drawnBounds?_of_isHit {s : Stage ℝ} {h : Handle} (placed : s.world? h = some w)
    (wide : w.Wide) :
    ∃ b, s.drawnBounds? h = some b ∧
      (∀ p, s.isHit h p = true → b.contains p = true) ∧
      (w.rotation = 0 → ∀ p, s.isHit h p = true ↔ b.contains p = true) := by
  obtain ⟨a, ha⟩ : ∃ a, s.actor? h = some a :=
    Option.isSome_iff_exists.mp ((s.isSome_world? h).symm.trans (placed ▸ rfl))
  refine ⟨drawnBox a.look w, by rw [drawnBounds?, ha, placed], ?_⟩
  cases worn : a.look.costume? with
  | none =>
    -- without a costume the box is what is tested
    have same : ∀ p, s.isHit h p = (drawnBox a.look w).contains p := by
      intro p
      rw [isHit, ha, placed]
      dsimp only
      rw [worn]
    exact ⟨fun p hit => same p ▸ hit, fun _ p => by rw [same p]⟩
  | some c =>
    have exact : ∀ p, s.isHit h p = hits c w p := by
      intro p
      rw [isHit, ha, placed]
      dsimp only
      rw [worn]
    refine ⟨fun p hit => contains_drawnBox_of_hits wide worn (exact p ▸ hit), fun level p => ?_⟩
    rw [exact p]
    exact hits_iff_contains_of_quarters wide (.inl (level ▸ Real.sin_zero)) worn p

/-- An image of which the upper right quarter is visible. -/
noncomputable def quartered : Costume ℝ := ⟨"c", "c", "", 100, 100, some ⟨50, 0, 50, 50⟩⟩

/-- Someone mirrored, three times as wide, and turned by so many degrees. -/
noncomputable def mirrored (id : String) (degrees : ℝ) : Op ℝ :=
  .spawn { Spawn.new id with
    rotation := degrees, scale := ⟨-3, 1⟩, costumes := [quartered] }

/-- Two of them, of whom one is turned. -/
noncomputable def mirrors : Stage ℝ := hall.perform [mirrored "turned" 45, mirrored "level" 0]

/-- Where they are. -/
noncomputable def reflection (degrees : ℝ) : Placement ℝ :=
  ⟨hall.canvas.toPixels Vec.zero, Canvas.rotationToPixels degrees, ⟨-3, 1⟩⟩

theorem wide_reflection (degrees : ℝ) : (reflection degrees).Wide := by
  have across : (2⁻¹ ^ 23 : ℝ) ≤ |-3| := by norm_num
  have along : (2⁻¹ ^ 23 : ℝ) ≤ |1| := by norm_num
  exact ⟨across, along⟩

/-- The middle of the image is a corner of what is visible of it. -/
theorem isHit_mirrors : mirrors.isHit 0 (reflection 45).offset = true := by
  have still : (Vec.ofAngle (-(reflection 45).rotation)).rotate
      ((reflection 45).offset - (reflection 45).offset) = ⟨0, 0⟩ := by
    rw [sub_self]
    exact congrArg₂ Vec.mk (by show _ * (0 : ℝ) - _ * 0 = 0; ring)
      (by show _ * (0 : ℝ) + _ * 0 = 0; ring)
  have across : |(0 : ℝ) / Placement.divisor (-3) - (50 + 50 * Scalar.half - 100 * Scalar.half)|
      ≤ 50 * Scalar.half := by
    show |(0 : ℝ) / _ - (50 + 50 * ((1 : ℤ) / (2 : ℕ)) - 100 * ((1 : ℤ) / (2 : ℕ)))|
      ≤ 50 * ((1 : ℤ) / (2 : ℕ))
    rw [zero_div]
    norm_num
  have along : |(0 : ℝ) / Placement.divisor 1 - (0 + 50 * Scalar.half - 100 * Scalar.half)|
      ≤ 50 * Scalar.half := by
    show |(0 : ℝ) / _ - (0 + 50 * ((1 : ℤ) / (2 : ℕ)) - 100 * ((1 : ℤ) / (2 : ℕ)))|
      ≤ 50 * ((1 : ℤ) / (2 : ℕ))
    rw [zero_div]
    norm_num
  show hits quartered (reflection 45) (reflection 45).offset = true
  rw [hits, still, Bool.and_eq_true]
  exact ⟨decide_eq_true across, decide_eq_true along⟩

/-- So the box around the one that is turned reaches there; and the box around the other is what is
    visible. -/
theorem drawnBounds?_of_isHit_mirrors :
    mirrors.world? 0 = some (reflection 45) ∧ (reflection 45).Wide ∧
      mirrors.world? 1 = some (reflection 0) ∧ (reflection 0).Wide ∧ (reflection 0).rotation = 0 ∧
      (∃ b, mirrors.drawnBounds? 0 = some b ∧ b.contains (reflection 45).offset = true) ∧
      ∃ b, mirrors.drawnBounds? 1 = some b ∧
        (mirrors.isHit 1 (reflection 0).offset = true ↔ b.contains (reflection 0).offset = true) := by
  have turned : mirrors.world? 0 = some (reflection 45) := rfl
  have level : mirrors.world? 1 = some (reflection 0) := rfl
  have nought : (reflection 0).rotation = 0 := by
    show -(0 * Scalar.radians) = (0 : ℝ)
    rw [zero_mul, neg_zero]
  obtain ⟨b, drawn, hit, -⟩ := drawnBounds?_of_isHit turned (wide_reflection 45)
  obtain ⟨c, drawn', -, same⟩ := drawnBounds?_of_isHit level (wide_reflection 0)
  exact ⟨turned, wide_reflection 45, level, wide_reflection 0, nought,
    ⟨b, drawn, hit _ isHit_mirrors⟩, c, drawn', same nought _⟩

end Stage

end BlockStage
