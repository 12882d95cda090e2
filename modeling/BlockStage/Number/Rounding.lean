/-
  Whole parts of floating numbers: floor, ceiling, truncation, rounding with halves away from
  zero, conversion to bounded integers, and the remainder with the sign of the modulus.

  Each works on the exact value `± m · 2 ^ e`.  With `e ≥ 0` the number is whole already; else the
  magnitude is the ratio `m / 2 ^ (-e)` and the operations differ only in how they divide.  The sign
  of the argument is kept also when the result is zero.
-/
import BlockStage.Number.Binary

namespace BlockStage

/-- The four ways to a whole number. -/
inductive Rounding where
  | floor | ceiling | truncate | nearest
deriving Repr, DecidableEq

namespace Rounding

/-- How the magnitude `num / den` of a number of the given sign is made whole. -/
def magnitude (r : Rounding) (negative : Bool) (num den : Nat) : Nat :=
  match r with
  | .truncate => num / den
  | .floor => if negative then (num + (den - 1)) / den else num / den
  | .ceiling => if negative then num / den else (num + (den - 1)) / den
  | .nearest => (2 * num + den) / (2 * den)

/-- The whole exact value. -/
def apply (r : Rounding) : Exact → Exact
  | .finite negative m e =>
    if 0 ≤ e then .finite negative m e
    else .finite negative (r.magnitude negative m (Nat.pow 2 (-e).toNat)) 0
  | x => x

end Rounding

/-- The largest whole number not above `x`. -/
def floorOf (x : Float) : Float := doubleOf (Rounding.floor.apply (exactOf x))

/-- The least whole number not below `x`. -/
def ceilingOf (x : Float) : Float := doubleOf (Rounding.ceiling.apply (exactOf x))

/-- `x` without its fraction. -/
def truncOf (x : Float) : Float := doubleOf (Rounding.truncate.apply (exactOf x))

/-- The nearest whole number, halves away from zero. -/
def roundOf (x : Float) : Float := doubleOf (Rounding.nearest.apply (exactOf x))

/-- Is `x` a whole number? Not-a-number and the infinities are not. -/
def isWhole (x : Float) : Bool :=
  match exactOf x with
  | .finite _ m e => decide (0 ≤ e) || decide (m % Nat.pow 2 (-e).toNat = 0)
  | _ => false

/-- The integer part of an exact value, clamped to `[lo, hi]`; not-a-number counts as 0. -/
def Exact.clampInt (lo hi : Int) : Exact → Int
  | .nan => 0
  | .infinite negative => if negative then lo else hi
  | .finite negative m e =>
    let magnitude := if 0 ≤ e then m * Nat.pow 2 e.toNat else m / Nat.pow 2 (-e).toNat
    let i : Int := if negative then -magnitude else magnitude
    max lo (min hi i)

/-- The integer part of `x`, clamped to `[lo, hi]`. -/
def toIntWithin (lo hi : Int) (x : Float) : Int := (exactOf x).clampInt lo hi

/-- The integer part, clamped to the signed 32-bit range. -/
def toInt32 (x : Float) : Int := toIntWithin (-Nat.pow 2 31) (Nat.pow 2 31 - 1) x

/-- The integer part, clamped to the signed 64-bit range. -/
def toInt64 (x : Float) : Int := toIntWithin (-Nat.pow 2 63) (Nat.pow 2 63 - 1) x

/-- The integer part, clamped to the unsigned 64-bit range. -/
def toNat64 (x : Float) : Nat := (toIntWithin 0 (Nat.pow 2 64 - 1) x).toNat

/-- The remainder of truncated division, which is exact and has the sign of the dividend. -/
def Exact.rem : Exact → Exact → Exact
  | .finite n m e, .finite _ m' e' =>
    if m' = 0 then .nan
    else
      let low := min e e'
      .finite n ((m * Nat.pow 2 (e - low).toNat) % (m' * Nat.pow 2 (e' - low).toNat)) low
  | .finite n m e, .infinite _ => .finite n m e
  | _, _ => .nan

/-- The remainder that is never negative for a positive modulus: the truncated remainder, plus the
    modulus where that is below zero. -/
def remEuclid (x y : Float32) : Float32 :=
  let r := singleOf ((exactOfSingle x).rem (exactOfSingle y))
  if r < 0 then r + y.abs else r

example : (floorOf (-0.5) == -1) = true := by decide +kernel
example : (roundOf 2.5 == 3 && roundOf (-2.5) == -3) = true := by decide +kernel
example : toInt32 1e10 = 2147483647 := by decide +kernel
example : toNat64 (-3.5) = 0 := by decide +kernel
example : (remEuclid (-1) 5 == 4) = true := by decide +kernel

end BlockStage
