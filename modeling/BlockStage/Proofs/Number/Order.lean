/-
  What comparing floating numbers means, and which of them are sound lengths and spans of time.

  1. **Order** — two numbers compare as sign, exponent and mantissa say, unless one of them is
     not-a-number.  Hence all others stand in line (`Double.not_lt_iff`), and the bounds between
     which the ends of a sound are brought are in order for the sounds of `Sound.Sized` and for no
     others (`Sound.trimmedLength_ok_iff`).

  2. **Words** — reading a word as an exact value and unpacking it for a comparison cut it at the
     same bits (`decode_eq`), so a comparison can be read off exact values.

  3. **The crux (`ofSeconds_max_ok_iff`)** — a time that is at least nought is a span of time exactly
     if it is less than `2 ^ 64` seconds, infinity included: at this exponent the least mantissa of a
     normal number is the bound itself.
-/
import BlockStage.Clock
import BlockStage.Geometry.Scalar
import BlockStage.Sound
import Mathlib

namespace BlockStage

open Float.Model (UnpackedFloat)
open Float.Model.UnpackedFloat (unpackSign unpackExponent unpackMantissa)

/-! ## Order -/

namespace Unpacked

variable {a b : UnpackedFloat}

theorem compare_eq_none : a.compare b = none ↔ a = .notANumber ∨ b = .notANumber := by
  rcases a with (_ | _) | _ | (_ | _) | ⟨_ | _, m, e, _⟩ <;>
    rcases b with (_ | _) | _ | (_ | _) | ⟨_ | _, n, f, _⟩ <;>
    simp [UnpackedFloat.compare]

theorem compare_swap : b.compare a = (a.compare b).map Ordering.swap := by
  -- only two finite numbers of one sign are compared by exponent and mantissa
  have finite (m n : Nat) (e f : Int) :
      ((compare e f).then (compare m n)).swap = (compare f e).then (compare n m) := by
    rw [Ordering.swap_then, ← Std.OrientedCmp.eq_swap, ← Std.OrientedCmp.eq_swap]
  rcases a with (_ | _) | _ | (_ | _) | ⟨_ | _, m, e, _⟩ <;>
    rcases b with (_ | _) | _ | (_ | _) | ⟨_ | _, n, f, _⟩ <;>
    first
    | rfl
    | exact congrArg some (finite m n e f).symm
    | exact congrArg (fun o => some (Ordering.swap o)) (finite m n e f).symm

/-- Every number compares as equal to itself, since it does not matter in which order the two are
    compared. -/
theorem compare_self (h : a ≠ .notANumber) : a.compare a = some .eq := by
  have swapped := compare_swap (a := a) (b := a)
  cases compared : a.compare a with
  | none => exact absurd (compare_eq_none.mp compared) (by tauto)
  | some o =>
    rw [compared] at swapped
    cases o with
    | eq => rfl
    | lt => cases swapped
    | gt => cases swapped

end Unpacked

namespace Double

variable {x y : Float}

theorem isNaN_eq_false : x.isNaN = false ↔ x.toModel.unpack ≠ .notANumber := by
  show x.toModel.unpack.isNaN = false ↔ _
  rw [← Bool.not_eq_true, UnpackedFloat.isNaN_iff]

theorem le_iff : x ≤ y ↔ (x.toModel.unpack.compare y.toModel.unpack).any Ordering.isLE = true := by
  show Float.le x y = true ↔ _
  rw [Float.le]
  exact decide_eq_true_iff

theorem lt_iff : x < y ↔ x.toModel.unpack.compare y.toModel.unpack = some .lt := by
  show Float.lt x y = true ↔ _
  rw [Float.lt]
  exact decide_eq_true_iff.trans beq_iff_eq

/-- What can be compared are numbers. -/
theorem isNaN_of_compare {o : Ordering} (h : x.toModel.unpack.compare y.toModel.unpack = some o) :
    x.isNaN = false ∧ y.isNaN = false := by
  rw [isNaN_eq_false, isNaN_eq_false, ← not_or, ← Unpacked.compare_eq_none, h]
  exact nofun

theorem isNaN_of_le (h : x ≤ y) : x.isNaN = false ∧ y.isNaN = false := by
  rw [le_iff] at h
  cases compared : x.toModel.unpack.compare y.toModel.unpack with
  | none =>
    rw [compared] at h
    cases h
  | some o => exact isNaN_of_compare compared

theorem le_refl (h : x.isNaN = false) : x ≤ x := by
  rw [le_iff, Unpacked.compare_self (isNaN_eq_false.mp h)]
  rfl

/-- All numbers but not-a-number stand in line. -/
theorem not_lt_iff (hx : x.isNaN = false) (hy : y.isNaN = false) : ¬y < x ↔ x ≤ y := by
  rw [isNaN_eq_false] at hx hy
  rw [lt_iff, Unpacked.compare_swap, le_iff]
  cases compared : x.toModel.unpack.compare y.toModel.unpack with
  | none => exact absurd (Unpacked.compare_eq_none.mp compared) (by tauto)
  | some o => cases o <;> decide

end Double

/-! ## The lengths of sounds -/

namespace Sound

/-- A sound of proper length: if its whole length is known it is not negative, and the place where
    it begins is a number. -/
def Sized (x : Sound) : Prop :=
  ∀ d, x.duration = some d → 0 ≤ d ∧ (x.trimStart.getD 0).isNaN = false

/-- What is brought between nought and an upper bound is no more than that, unless it is
    not-a-number. -/
theorem clamp?_le_iff {d x y : Float} (h : clamp? 0 d x = some y) : y ≤ d ↔ x.isNaN = false := by
  by_cases bounds : (0 : Float) ≤ d
  · have number := (Double.isNaN_of_le bounds).2
    rw [clamp?, if_pos bounds] at h
    obtain rfl := Option.some.inj h
    split
    · rename_i below
      exact iff_of_true bounds (Double.isNaN_of_compare (Double.lt_iff.mp below)).1
    · split
      · rename_i above
        exact iff_of_true (Double.le_refl number)
          (Double.isNaN_of_compare (Double.lt_iff.mp above)).2
      · rename_i within
        exact ⟨fun h => (Double.isNaN_of_le h).1, fun h => (Double.not_lt_iff h number).mp within⟩
  · rw [clamp?, if_neg bounds] at h
    cases h

theorem trimmedLength_ok_iff (x : Sound) : (∃ l, x.trimmedLength = .ok l) ↔ x.Sized := by
  rw [trimmedLength]
  cases hd : x.duration with
  | none => exact iff_of_true ⟨_, rfl⟩ fun d h => by rw [hd] at h; cases h
  | some d =>
    have sized : x.Sized ↔ 0 ≤ d ∧ (x.trimStart.getD 0).isNaN = false :=
      ⟨fun h => h d hd, fun h e he => by rw [hd] at he; exact Option.some.inj he ▸ h⟩
    rw [sized]
    dsimp only
    cases hf : clamp? 0 d (x.trimStart.getD 0) with
    | none =>
      rw [clamp?] at hf
      split at hf
      · cases hf
      · rename_i negative
        exact iff_of_false (fun ⟨_, h⟩ => nomatch h) fun h => negative h.1
    | some first =>
      have bounds : (0 : Float) ≤ d := by
        by_contra h
        rw [clamp?, if_neg h] at hf
        cases hf
      dsimp only
      rw [← clamp?_le_iff hf, clamp?]
      by_cases ordered : first ≤ d
      · rw [if_pos ordered]
        exact iff_of_true ⟨_, rfl⟩ ⟨bounds, ordered⟩
      · rw [if_neg ordered]
        exact iff_of_false (fun ⟨_, h⟩ => nomatch h) fun h => ordered h.2

end Sound

/-! ## Words -/

namespace Exact

/-- Is the sign minus? -/
def isMinus : UnpackedFloat.Sign → Bool
  | .negative => true
  | .positive => false

/-- The exact value of an unpacked number. -/
def ofUnpacked (f : Format) : UnpackedFloat → Exact
  | .notANumber => .nan
  | .infinity s => .infinite (isMinus s)
  | .zero s => .finite (isMinus s) 0 f.lowest
  | .finite s m e _ => .finite (isMinus s) m e

end Exact

/-- The format with as many bits. -/
def Format.ofSpec (spec : Float.Model.Format) : Format :=
  ⟨spec.mantissaBitsWithoutImplicit, spec.exponentBits⟩

section
variable {spec : Float.Model.Format} (b : BitVec spec.numBits)

/-- The sign of a word. -/
abbrev wordSign : UnpackedFloat.Sign := .ofBitVec (unpackSign b)

theorem toNat_unpackMantissa :
    (unpackMantissa b).toNat = b.toNat % 2 ^ spec.mantissaBitsWithoutImplicit := by
  rw [unpackMantissa, BitVec.toNat_cast, BitVec.extractLsb_toNat, Nat.shiftRight_zero, Nat.sub_zero,
    Nat.sub_add_cancel spec.hm]

theorem toNat_unpackExponent : (unpackExponent b).toNat
    = b.toNat / 2 ^ spec.mantissaBitsWithoutImplicit % 2 ^ spec.exponentBits := by
  have width : spec.mantissaBitsWithoutImplicit + spec.exponentBits - 1
      - spec.mantissaBitsWithoutImplicit + 1 = spec.exponentBits := by
    have := spec.he
    omega
  rw [unpackExponent, BitVec.toNat_cast, BitVec.extractLsb_toNat, width, Nat.shiftRight_eq_div_pow]

theorem toNat_unpackSign : (unpackSign b).toNat
    = b.toNat / 2 ^ (spec.mantissaBitsWithoutImplicit + spec.exponentBits) := by
  have bound := b.isLt
  rw [unpackSign, BitVec.toNat_cast, BitVec.extractLsb_toNat, Nat.shiftRight_eq_div_pow, Nat.sub_self,
    Nat.mod_eq_of_lt]
  rw [Nat.div_lt_iff_lt_mul (Nat.two_pow_pos _), ← Nat.pow_add]
  exact bound.trans_eq (congrArg _ (by show 1 + _ + _ = _; omega))

theorem isMinus_wordSign :
    Exact.isMinus (wordSign b) = decide ((Format.ofSpec spec).signWeight ≤ b.toNat) := by
  have weight : (Format.ofSpec spec).signWeight
      = 2 ^ (spec.mantissaBitsWithoutImplicit + spec.exponentBits) := rfl
  have bit := toNat_unpackSign b
  rw [Bool.eq_iff_iff, decide_eq_true_iff, weight, ← Nat.one_le_div_iff (Nat.two_pow_pos _), ← bit]
  rcases BitVec.eq_zero_or_eq_one (unpackSign b) with h | h <;> rw [wordSign, h] <;> decide

/-- The implicit bit counts for as much as it does in an exact value. -/
theorem toNat_implicit {n : Nat} (m : BitVec n) : (1#1 ++ m).toNat = m.toNat + 2 ^ n := by
  rw [BitVec.toNat_append, ← Nat.shiftLeft_add_eq_or_of_lt m.isLt, Nat.shiftLeft_eq,
    show (1#1).toNat = 1 from rfl, Nat.one_mul, Nat.add_comm]

theorem signWeight_ofSpec : (Format.ofSpec spec).signWeight
    = 2 ^ spec.mantissaBitsWithoutImplicit * 2 ^ spec.exponentBits := Nat.pow_add ..

/-- The field of the exponent, read off the number of a word. -/
theorem exponentField_eq :
    b.toNat % (Format.ofSpec spec).signWeight / Nat.pow 2 (Format.ofSpec spec).fraction
      = (unpackExponent b).toNat := by
  rw [toNat_unpackExponent, signWeight_ofSpec]
  exact Nat.mod_mul_right_div_self ..

/-- The field of the mantissa. -/
theorem mantissaField_eq :
    b.toNat % (Format.ofSpec spec).signWeight % Nat.pow 2 (Format.ofSpec spec).fraction
      = (unpackMantissa b).toNat := by
  rw [toNat_unpackMantissa, signWeight_ofSpec]
  exact Nat.mod_mul_right_mod ..

/-- The exponent with all bits set. -/
theorem exponentField_full : (unpackExponent b).toNat
    = Nat.pow 2 (Format.ofSpec spec).exponentBits - 1 ↔ unpackExponent b = -1#_ := by
  rw [← BitVec.toNat_inj, BitVec.neg_one_eq_allOnes, BitVec.toNat_allOnes]
  rfl

theorem lowest_ofSpec : (Format.ofSpec spec).lowest
    = 1 - ((spec.exponentBias + spec.mantissaBitsWithoutImplicit : Nat) : Int) := by
  have fraction : (Format.ofSpec spec).fraction = spec.mantissaBitsWithoutImplicit := rfl
  have width : (Format.ofSpec spec).exponentBits = spec.exponentBits := rfl
  have positive := Nat.two_pow_pos (spec.exponentBits - 1)
  rw [Format.lowest, Float.Model.Format.exponentBias, fraction, width]
  show (2 : Int) - (2 ^ (spec.exponentBits - 1) : Nat) - _ = _
  omega

/-- Reading a word as an exact value is unpacking it. -/
theorem decode_eq : (Format.ofSpec spec).decode b.toNat
    = Exact.ofUnpacked (.ofSpec spec) (UnpackedFloat.unpack spec b) := by
  have nought {n : Nat} {v : BitVec n} : v.toNat = 0 ↔ v = 0#n := by
    rw [← BitVec.toNat_inj, BitVec.toNat_zero]
  rw [UnpackedFloat.unpack, Format.decode]
  rw [← isMinus_wordSign, exponentField_eq, mantissaField_eq]
  by_cases all : unpackExponent b = -1#_
  · rw [if_pos all, if_pos ((exponentField_full b).mpr all)]
    by_cases zero : unpackMantissa b = 0#_
    · rw [if_pos zero, if_pos (nought.mpr zero)]
      rfl
    · rw [if_neg zero, if_neg fun h => zero (nought.mp h)]
      rfl
  rw [if_neg all, if_neg fun h => all ((exponentField_full b).mp h)]
  by_cases least : unpackExponent b = 0#_
  · rw [if_pos least, if_pos (nought.mpr least)]
    by_cases zero : unpackMantissa b = 0#_
    · rw [dif_pos zero, zero]
      rfl
    · rw [dif_neg zero]
      refine congrArg (Exact.finite _ _) ?_
      rw [least, BitVec.toNat_zero, lowest_ofSpec]
      omega
  · have positive : (unpackExponent b).toNat ≠ 0 := fun h => least (nought.mp h)
    rw [if_neg least, if_neg positive]
    refine congrArg₂ (Exact.finite _) (toNat_implicit _).symm ?_
    rw [lowest_ofSpec]
    omega

end

/-! ## Spans of time -/

namespace Single

theorem le_iff {x y : Float32} :
    x ≤ y ↔ (x.toModel.unpack.compare y.toModel.unpack).any Ordering.isLE = true := by
  show Float32.le x y = true ↔ _
  rw [Float32.le]
  exact decide_eq_true_iff

theorem lt_iff {x y : Float32} :
    x < y ↔ x.toModel.unpack.compare y.toModel.unpack = some .lt := by
  show Float32.lt x y = true ↔ _
  rw [Float32.lt]
  exact decide_eq_true_iff.trans beq_iff_eq

theorem exactOfSingle_eq (x : Float32) :
    exactOfSingle x = .ofUnpacked .single x.toModel.unpack := @decode_eq .binary32 _

/-- A mantissa is below its bound, and it has its highest bit unless the exponent is the least. -/
theorem mantissa_of_decode {w m : Nat} {negative : Bool} {e : Int}
    (h : Format.single.decode w = .finite negative m e) :
    m < 2 ^ 24 ∧ (2 ^ 23 ≤ m ∨ e = Format.single.lowest) := by
  have low : w % Format.single.signWeight % Nat.pow 2 Format.single.fraction < 2 ^ 23 :=
    Nat.mod_lt _ (by decide)
  have implicit : Nat.pow 2 Format.single.fraction = 2 ^ 23 := rfl
  rw [Format.decode] at h
  split at h
  · split at h <;> cases h
  · split at h
    · cases h
      exact ⟨by omega, .inr rfl⟩
    · cases h
      exact ⟨by omega, .inl (by omega)⟩

theorem unpack_zero : (0 : Float32).toModel.unpack = .zero .positive := rfl

/-- What is more than nought is infinite or has a plus. -/
theorem positive_iff {x : Float32} : 0 < x ↔ x.toModel.unpack = .infinity .positive
    ∨ ∃ m e h, x.toModel.unpack = .finite .positive m e h := by
  rw [lt_iff, unpack_zero]
  rcases x.toModel.unpack with (_ | _) | _ | (_ | _) | ⟨_ | _, m, e, h⟩ <;>
    simp [UnpackedFloat.compare]
  exact h

end Single

namespace Span

/-- The least time that is too long for a span, `2 ^ 64` seconds. -/
def tooLong : Float32 := Float32.ofBits 0x5F800000

theorem unpack_tooLong :
    tooLong.toModel.unpack = .finite .positive (2 ^ 23) 41 (by decide) := rfl

/-- From the exponent 41 on all normal numbers are too long, and below it none is. -/
theorem long_iff {m : Nat} {e : Int} (bounded : m < 2 ^ 24)
    (normal : 2 ^ 23 ≤ m ∨ e = Format.single.lowest) :
    2 ^ 64 * 2 ^ (-e).toNat ≤ m * 2 ^ e.toNat ↔ 41 < e ∨ 41 = e ∧ 2 ^ 23 ≤ m := by
  have lowest : Format.single.lowest = -149 := rfl
  by_cases high : 41 ≤ e
  · have normal : 2 ^ 23 ≤ m := by omega
    refine iff_of_true ?_ (by omega)
    have scale : 2 ^ 41 ≤ 2 ^ e.toNat := Nat.pow_le_pow_right (by decide) (by omega)
    have unit : (-e).toNat = 0 := by omega
    calc 2 ^ 64 * 2 ^ (-e).toNat = 2 ^ 23 * 2 ^ 41 := by rw [unit]; rfl
      _ ≤ m * 2 ^ e.toNat := Nat.mul_le_mul normal scale
  · refine iff_of_false (Nat.not_le.mpr ?_) (by omega)
    have scale : 2 ^ e.toNat ≤ 2 ^ 40 := Nat.pow_le_pow_right (by decide) (by omega)
    calc m * 2 ^ e.toNat ≤ m * 2 ^ 40 := Nat.mul_le_mul_left m scale
      _ < 2 ^ 24 * 2 ^ 40 := by omega
      _ = 2 ^ 64 := rfl
      _ ≤ 2 ^ 64 * 2 ^ (-e).toNat := Nat.le_mul_of_pos_right _ (Nat.two_pow_pos _)

section
variable {x : Float32}

theorem tooLong_le_finite {m : Nat} {e : Int} {h : 0 < m}
    (finite : x.toModel.unpack = .finite .positive m e h) :
    tooLong ≤ x ↔ 2 ^ 64 * 2 ^ (-e).toNat ≤ m * 2 ^ e.toNat := by
  have exact : Format.single.decode x.toBits.toNat = .finite false m e := by
    rw [← exactOfSingle, Single.exactOfSingle_eq, finite]
    rfl
  obtain ⟨bounded, normal⟩ := Single.mantissa_of_decode exact
  rw [long_iff bounded normal, Single.le_iff, unpack_tooLong, finite]
  show ((compare 41 e).then (compare (2 ^ 23) m)).isLE = true ↔ _
  rw [Ordering.isLE_then_iff_or, Int.compare_eq_lt, Int.compare_eq_eq, Nat.isLE_compare]

theorem positive_of_tooLong_le (h : tooLong ≤ x) : 0 < x := by
  rw [Single.le_iff, unpack_tooLong] at h
  rw [Single.lt_iff, Single.unpack_zero]
  generalize x.toModel.unpack = u at h
  rcases u with (_ | _) | _ | (_ | _) | ⟨_ | _, m, e, pos⟩ <;>
    first
    | rfl
    | cases h

/-- **Spans of time** are less than `2 ^ 64` seconds, and all such times are spans. -/
theorem ofSeconds_max_ok_iff : (∃ t, ofSeconds (Single.max x 0) = .ok t) ↔ ¬tooLong ≤ x := by
  by_cases positive : 0 < x
  · have same : Single.max x 0 = x := if_pos positive
    rw [same, ofSeconds, Single.exactOfSingle_eq]
    rcases Single.positive_iff.mp positive with infinite | ⟨m, e, h, finite⟩
    · have long : tooLong ≤ x := by
        rw [Single.le_iff, infinite]
        rfl
      rw [infinite]
      exact iff_of_false nofun fun no => no long
    · rw [tooLong_le_finite finite, finite]
      by_cases long : 2 ^ 64 * 2 ^ (-e).toNat ≤ m * 2 ^ e.toNat
      · refine iff_of_false ?_ fun no => no long
        rintro ⟨t, ht⟩
        cases (if_pos long).symm.trans ht
      · exact iff_of_true ⟨_, if_neg long⟩ long
  · have none : Single.max x 0 = 0 := if_neg positive
    have nothing : ofSeconds 0 = .ok ⟨0⟩ := by
      rw [ofSeconds, Single.exactOfSingle_eq, Single.unpack_zero]
      rfl
    rw [none]
    exact iff_of_true ⟨_, nothing⟩ fun long => positive (positive_of_tooLong_le long)

end

end Span

end BlockStage
