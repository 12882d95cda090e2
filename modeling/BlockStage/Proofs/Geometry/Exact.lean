/-
  Exact geometry: the real numbers as scalars.

  What is proved for any type of scalars can be read here without rounding.  Two angles give the same
  direction if they differ by whole turns, and the angle of a direction is the one it was made from
  up to whole turns.
-/
import Mathlib.Analysis.SpecialFunctions.Complex.Arg
import BlockStage.Geometry.Vec

namespace BlockStage

/-- Arithmetic without rounding, in which every number is finite. -/
noncomputable instance : Scalar ℝ where
  ratio i n := i / n
  less a b := decide (a < b)
  lessEq a b := decide (a ≤ b)
  equal a b := decide (a = b)
  minOf := min
  maxOf := max
  magnitude a := |a|
  root := Real.sqrt
  sine := Real.sin
  cosine := Real.cos
  angle y x := Complex.arg ⟨x, y⟩
  wrap a m := a - m * ⌊a / m⌋
  pi := Real.pi
  turn := 2 * Real.pi
  degrees := 180 / Real.pi
  radians := Real.pi / 180
  tiny := 2⁻¹ ^ 23
  finite _ := true

/-- The angle of a direction is the one it was made from, up to whole turns. -/
theorem Vec.angle_ofAngle (r : ℝ) :
    ((Scalar.angle (ofAngle r).y (ofAngle r).x : ℝ) : Real.Angle) = r := by
  have direction : (⟨Real.cos r, Real.sin r⟩ : ℂ)
      = Real.Angle.cos (r : Real.Angle) + Real.Angle.sin (r : Real.Angle) * Complex.I := by
    rw [Real.Angle.cos_coe, Real.Angle.sin_coe, Complex.mk_eq_add_mul_I]
  show ((Complex.arg ⟨Real.cos r, Real.sin r⟩ : ℝ) : Real.Angle) = r
  rw [direction, Complex.arg_cos_add_sin_mul_I_coe_angle]

end BlockStage
