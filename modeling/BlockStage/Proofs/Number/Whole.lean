/-
  Whole numbers among the floating ones.

  1. **Specification (`Double.Finite.floor`, `Double.Finite.ceiling`)** — a number is whole exactly if
     its exact value is (`isWhole_iff`), the floor and the ceiling of a finite number are those of its
     exact value, and an integer part that is too large for 64 bits is brought to the nearest bound
     (`toInt64_eq`).

  2. **The crux (`isWhole_doubleOfInt`)** — the number nearest to a 64-bit integer is whole: below
     `2 ^ 53` it is the integer itself, and from `2 ^ 52` on no number has a fraction.
-/
import BlockStage.Number.Rounding
import BlockStage.Proofs.Number.Nearest

namespace BlockStage

namespace Exact

variable {negative : Bool} {m : Nat} {e : Int}

theorem value_of_nonneg (h : 0 ≤ e) :
    (Exact.finite negative m e).value = (signed negative (m * 2 ^ e.toNat : ℤ) : ℤ) := by
  have power : (2 : ℚ) ^ e = 2 ^ e.toNat := by
    rw [← zpow_natCast, Int.toNat_of_nonneg h]
  rw [value, power]
  cases negative <;> simp [signed]

theorem value_of_neg (h : ¬0 ≤ e) :
    (Exact.finite negative m e).value = signed negative ((m : ℚ) / (2 ^ (-e).toNat : ℕ)) := by
  have power : (2 : ℚ) ^ e = ((2 ^ (-e).toNat : ℕ) : ℚ)⁻¹ := by
    rw [Nat.cast_pow, Nat.cast_ofNat, ← zpow_natCast, Int.toNat_of_nonneg (by omega), zpow_neg, inv_inv]
  rw [value, power, div_eq_mul_inv]

/-- A ratio is whole if nothing remains. -/
theorem exists_div_eq_iff {d : Nat} (positive : 0 < d) (negative : Bool) (m : Nat) :
    (∃ i : ℤ, signed negative ((m : ℚ) / d) = i) ↔ m % d = 0 := by
  have nonzero : (d : ℚ) ≠ 0 := by positivity
  have plain : (∃ i : ℤ, (m : ℚ) / d = i) ↔ m % d = 0 := by
    rw [← Nat.dvd_iff_mod_eq_zero]
    constructor
    · rintro ⟨i, h⟩
      rw [div_eq_iff nonzero] at h
      refine Int.natCast_dvd_natCast.mp ⟨i, ?_⟩
      rw [mul_comm]
      exact_mod_cast h
    · rintro ⟨i, rfl⟩
      refine ⟨i, ?_⟩
      rw [div_eq_iff nonzero]
      push_cast
      ring
  cases negative
  · exact plain
  · rw [← plain]
    constructor
    · rintro ⟨i, h⟩
      exact ⟨-i, by rw [Int.cast_neg, ← h]; exact (neg_neg _).symm⟩
    · rintro ⟨i, h⟩
      exact ⟨-i, by rw [Int.cast_neg, ← h]; rfl⟩

/-- The quotient without the remainder, and the least number that is no less. -/
theorem quotient_bounds {d : Nat} (positive : 0 < d) (m : Nat) :
    ((m / d : Nat) : ℚ) ≤ m / d ∧ (m : ℚ) / d < (m / d : Nat) + 1 ∧
    (((m + (d - 1)) / d : Nat) : ℚ) - 1 < m / d ∧ (m : ℚ) / d ≤ ((m + (d - 1)) / d : Nat) := by
  have scale : (0 : ℚ) < d := by exact_mod_cast positive
  have below := Nat.div_mul_le_self m d
  have above := Nat.lt_div_mul_add (a := m) positive
  have lower := Nat.div_mul_le_self (m + (d - 1)) d
  have upper := Nat.lt_div_mul_add (a := m + (d - 1)) positive
  refine ⟨?_, ?_, ?_, ?_⟩
  · rw [le_div_iff₀ scale]
    exact_mod_cast below
  · rw [div_lt_iff₀ scale, add_mul, one_mul]
    exact_mod_cast above
  · rw [lt_div_iff₀ scale, sub_mul, one_mul, sub_lt_iff_lt_add]
    have : (m + (d - 1)) / d * d < m + d := by omega
    exact_mod_cast this
  · rw [div_le_iff₀ scale]
    have : m ≤ (m + (d - 1)) / d * d := by omega
    exact_mod_cast this

/-- A whole magnitude at the exponent nought. -/
theorem value_whole (negative : Bool) (m : Nat) :
    (Exact.finite negative m 0).value = (signed negative (m : ℤ) : ℤ) := by
  rw [value_of_nonneg le_rfl, Int.toNat_zero, pow_zero, mul_one]

theorem value_floor : (Rounding.floor.apply (.finite negative m e)).value
    = ⌊(Exact.finite negative m e).value⌋ := by
  rw [Rounding.apply]
  split
  · rename_i whole
    rw [value_of_nonneg whole, Int.floor_intCast]
  · rename_i fraction
    obtain ⟨below, above, lower, upper⟩ := quotient_bounds (Nat.two_pow_pos (-e).toNat) m
    rw [value_of_neg fraction, value_whole, Int.cast_inj, eq_comm, Int.floor_eq_iff]
    cases negative
    · exact ⟨by exact_mod_cast below, by exact_mod_cast above⟩
    · show ((-(((m + (2 ^ (-e).toNat - 1)) / 2 ^ (-e).toNat : ℕ) : ℤ) : ℤ) : ℚ) ≤ -_ ∧
        -_ < ((-(((m + (2 ^ (-e).toNat - 1)) / 2 ^ (-e).toNat : ℕ) : ℤ) : ℤ) : ℚ) + 1
      rw [Int.cast_neg, Int.cast_natCast]
      constructor <;> linarith

theorem value_ceiling : (Rounding.ceiling.apply (.finite negative m e)).value
    = ⌈(Exact.finite negative m e).value⌉ := by
  rw [Rounding.apply]
  split
  · rename_i whole
    rw [value_of_nonneg whole, Int.ceil_intCast]
  · rename_i fraction
    obtain ⟨below, above, lower, upper⟩ := quotient_bounds (Nat.two_pow_pos (-e).toNat) m
    rw [value_of_neg fraction, value_whole, Int.cast_inj, eq_comm, Int.ceil_eq_iff]
    cases negative
    · exact ⟨by exact_mod_cast lower, by exact_mod_cast upper⟩
    · show ((-((m / 2 ^ (-e).toNat : ℕ) : ℤ) : ℤ) : ℚ) - 1 < -_ ∧
        -_ ≤ ((-((m / 2 ^ (-e).toNat : ℕ) : ℤ) : ℤ) : ℚ)
      rw [Int.cast_neg, Int.cast_natCast]
      constructor <;> linarith

/-- A magnitude that is made whole is no longer than before. -/
theorem magnitude_le (r : Rounding) (hr : r = .floor ∨ r = .ceiling) (negative : Bool) (m : Nat)
    {d : Nat} (positive : 0 < d) : r.magnitude negative m d ≤ m := by
  have down : m / d ≤ m := Nat.div_le_self m d
  have up : (m + (d - 1)) / d ≤ m := by
    cases m with
    | zero => exact (Nat.div_eq_of_lt (by omega)).le
    | succ k =>
      have rest := Nat.le_mul_of_pos_right k positive
      refine Nat.div_le_of_le_mul ?_
      rw [Nat.mul_comm, Nat.succ_mul]
      omega
  rcases hr with rfl | rfl <;> rw [Rounding.magnitude] <;> split <;> assumption

end Exact

namespace Double

variable {x : Float}

theorem isWhole_iff : isWhole x = true ↔ Finite x ∧ ∃ i : ℤ, (exactOf x).value = i := by
  rw [isWhole, Finite]
  cases exactOf x with
  | nan => simp
  | infinite => simp
  | finite negative m e =>
    have finite : ∃ a n f, Exact.finite negative m e = .finite a n f := ⟨_, _, _, rfl⟩
    simp only [Bool.or_eq_true, decide_eq_true_eq, finite, true_and]
    by_cases whole : 0 ≤ e
    · exact iff_of_true (.inl whole) ⟨_, Exact.value_of_nonneg whole⟩
    · rw [Exact.value_of_neg whole, Exact.exists_div_eq_iff (Nat.two_pow_pos _)]
      exact or_iff_right whole

/-- A magnitude of at most 53 bits is a number. -/
theorem exactOf_doubleOf_whole (negative : Bool) {m : Nat} (short : m < 2 ^ 53) :
    ∃ n f, exactOf (doubleOf (.finite negative m 0)) = .finite negative n f ∧
      (Exact.finite negative n f).value = (Exact.finite negative m 0).value := by
  by_cases zero : m = 0
  · rw [zero, exactOf_doubleOf_zero]
    refine ⟨_, _, rfl, ?_⟩
    simp [Exact.value]
  · have bits : m.log2 < 53 := (Nat.log2_lt zero).mpr short
    refine ⟨_, _, exactOf_doubleOf_of_short negative zero (by omega) (by omega) (by omega), ?_⟩
    refine congrArg (signed negative) ?_
    rw [Nat.cast_mul, Nat.cast_pow, Nat.cast_ofNat, mul_assoc, ← zpow_natCast,
      ← zpow_add₀ (by norm_num), add_sub_cancel]

/-- A finite number that is made whole by its exact value stays finite. -/
theorem Finite.apply (hx : Finite x) {r : Rounding} (hr : r = .floor ∨ r = .ceiling) :
    Finite (doubleOf (r.apply (exactOf x))) ∧
      (exactOf (doubleOf (r.apply (exactOf x)))).value = (r.apply (exactOf x)).value := by
  have same := hx.doubleOf_exactOf
  obtain ⟨negative, m, e, h⟩ := hx
  rw [h, Rounding.apply]
  split
  · rw [h] at same
    rw [same, h]
    exact ⟨⟨_, _, _, h⟩, rfl⟩
  · have short := (Exact.magnitude_le r hr negative m (Nat.two_pow_pos (-e).toNat)).trans_lt
      (canonical h).short
    obtain ⟨n, f, exact, value⟩ := exactOf_doubleOf_whole negative short
    exact ⟨⟨_, _, _, exact⟩, (congrArg Exact.value exact).trans value⟩

/-- **The floor of a number is that of its exact value.** -/
theorem Finite.floor (hx : Finite x) :
    Finite (floorOf x) ∧ (exactOf (floorOf x)).value = ⌊(exactOf x).value⌋ := by
  obtain ⟨finite, value⟩ := hx.apply (.inl rfl)
  obtain ⟨negative, m, e, h⟩ := hx
  refine ⟨finite, value.trans ?_⟩
  rw [h, Exact.value_floor]

/-- **So is the ceiling.** -/
theorem Finite.ceiling (hx : Finite x) :
    Finite (ceilingOf x) ∧ (exactOf (ceilingOf x)).value = ⌈(exactOf x).value⌉ := by
  obtain ⟨finite, value⟩ := hx.apply (.inr rfl)
  obtain ⟨negative, m, e, h⟩ := hx
  refine ⟨finite, value.trans ?_⟩
  rw [h, Exact.value_ceiling]

/-- The integer part of a whole number is the number itself, if it is in range. -/
theorem toInt64_eq (hx : Finite x) {i : ℤ} (whole : (exactOf x).value = i) :
    toInt64 x = max (-2 ^ 63) (min (2 ^ 63 - 1) i) := by
  obtain ⟨negative, m, e, h⟩ := hx
  rw [h] at whole
  rw [toInt64, toIntWithin, h, Exact.clampInt]
  refine congrArg (fun j => max (-2 ^ 63) (min (2 ^ 63 - 1) j)) ?_
  by_cases integral : 0 ≤ e
  · rw [if_pos integral]
    rw [Exact.value_of_nonneg integral, Int.cast_inj] at whole
    rw [← whole]
    cases negative <;> simp [signed]
  · rw [if_neg integral]
    have positive := Nat.two_pow_pos (-e).toNat
    rw [Exact.value_of_neg integral] at whole
    have exact := (Exact.exists_div_eq_iff positive negative m).mp ⟨i, whole⟩
    rw [← Nat.cast_div (Nat.dvd_of_mod_eq_zero exact) (by positivity)] at whole
    cases negative
    · show ((m / 2 ^ (-e).toNat : ℕ) : ℤ) = i
      rw [← Int.cast_inj (α := ℚ), Int.cast_natCast]
      exact whole
    · show (-((m / 2 ^ (-e).toNat : ℕ) : ℤ) : ℤ) = i
      rw [← Int.cast_inj (α := ℚ), Int.cast_neg, Int.cast_natCast]
      exact whole

/-- The number nearest to an integer. -/
theorem nearest_doubleOfInt (i : ℤ) : Nearest i (doubleOfInt i) := by
  refine ⟨decide (i < 0), i.natAbs, 0, ?_, rfl⟩
  rw [Exact.value_whole, Int.cast_inj, signed]
  split
  · rename_i negative
    have negative : i < 0 := of_decide_eq_true negative
    omega
  · rename_i positive
    have positive : ¬i < 0 := fun h => positive (decide_eq_true h)
    omega

/-- From `2 ^ 52` on no number has a fraction. -/
theorem Finite.isWhole_of_large (hx : Finite x) (large : 2 ^ 52 ≤ |(exactOf x).value|) :
    isWhole x = true := by
  obtain ⟨negative, m, e, h⟩ := hx
  refine isWhole_iff.mpr ⟨⟨_, _, _, h⟩, ?_⟩
  rw [h] at large ⊢
  by_cases integral : 0 ≤ e
  · exact ⟨_, Exact.value_of_nonneg integral⟩
  · have magnitude : |(Exact.finite negative m e).value| = m * 2 ^ e := by
      cases negative
      · exact abs_of_nonneg (Exact.scaled_nonneg m e)
      · exact (abs_neg _).trans (abs_of_nonneg (Exact.scaled_nonneg m e))
    have small := Exact.scaled_lt (n := 2 ^ 52) (canonical h).short le_rfl (by omega : e < 0)
    rw [magnitude] at large
    norm_num at large small
    exact absurd small large.not_gt

/-- The number `± 2 ^ (52 + e)`. -/
theorem exactOf_power (negative : Bool) {e : Int} (least : -1074 ≤ e) (most : e ≤ 971) :
    exactOf (doubleOf (.finite negative (2 ^ 52) e)) = .finite negative (2 ^ 52) e := by
  have bits : (2 ^ 52).log2 = 52 := Nat.log2_two_pow
  have exact := exactOf_doubleOf_of_short negative (m := 2 ^ 52) (e := e) (by decide) bits.le
    (by omega) (by omega)
  rw [bits] at exact
  simpa using exact

/-- What is rounded stays between powers of two. -/
theorem between_powers {q : ℚ} {x : Float} (hx : Nearest q x) (a b : Bool) {e f : Int}
    (he : -1074 ≤ e ∧ e ≤ 971) (hf : -1074 ≤ f ∧ f ≤ 971)
    (above : signed a (2 ^ 52 * 2 ^ e) ≤ q) (below : q ≤ signed b (2 ^ 52 * 2 ^ f)) :
    Finite x ∧ signed a (2 ^ 52 * 2 ^ e) ≤ (exactOf x).value ∧
      (exactOf x).value ≤ signed b (2 ^ 52 * 2 ^ f) := by
  have least := exactOf_power a he.1 he.2
  have most := exactOf_power b hf.1 hf.2
  have values (c : Bool) (i : Int) :
      (Exact.finite c (2 ^ 52) i).value = signed c ((2 : ℚ) ^ 52 * 2 ^ i) := by
    rw [Exact.value, Nat.cast_pow, Nat.cast_ofNat]
  have stays := hx.between ⟨_, _, _, least⟩ ⟨_, _, _, most⟩
  rw [least, most, values, values] at stays
  exact stays above below

/-- **The number nearest to a 64-bit integer is whole.** -/
theorem isWhole_doubleOfInt {i : ℤ} (least : -2 ^ 63 ≤ i) (most : i ≤ 2 ^ 63) :
    isWhole (doubleOfInt i) = true := by
  by_cases short : i.natAbs < 2 ^ 53
  · obtain ⟨n, f, exact, value⟩ := exactOf_doubleOf_whole (decide (i < 0)) short
    refine isWhole_iff.mpr ⟨⟨_, _, _, exact⟩, ?_⟩
    rw [doubleOfInt, exact, value]
    exact ⟨_, Exact.value_whole _ _⟩
  · have nearest := nearest_doubleOfInt i
    have least : (-2 ^ 63 : ℚ) ≤ i := by exact_mod_cast least
    have most : (i : ℚ) ≤ 2 ^ 63 := by exact_mod_cast most
    rcases lt_or_ge i 0 with negative | positive
    · have long : i ≤ -2 ^ 53 := by omega
      have long : (i : ℚ) ≤ -2 ^ 53 := by exact_mod_cast long
      obtain ⟨finite, -, above⟩ := between_powers nearest true true (e := 11) (f := 0)
        (by decide) (by decide) (by norm_num [signed]; linarith) (by norm_num [signed]; linarith)
      refine finite.isWhole_of_large (le_abs.mpr (.inr ?_))
      norm_num [signed] at above
      linarith
    · have long : 2 ^ 53 ≤ i := by omega
      have long : (2 ^ 53 : ℚ) ≤ i := by exact_mod_cast long
      obtain ⟨finite, below, -⟩ := between_powers nearest false false (e := 0) (f := 11)
        (by decide) (by decide) (by norm_num [signed]; linarith) (by norm_num [signed]; linarith)
      refine finite.isWhole_of_large (le_abs.mpr (.inl ?_))
      norm_num [signed] at below
      linarith

end Double

end BlockStage
