/-
  Arithmetic of floating numbers: sums, differences and products are rounded once.

  1. **The crux (`Unpacked.toNat_pack_round`)** — the operations shift a mantissa bit by bit, with one
     bit for the half that is dropped and one for all that lies below it, and shift once more after a
     carry.  The word that comes of it is the one that is written for the exact value: the two bits
     tell how the dropped part compares with a half (`Codes`).

  2. **The result (`Double.Finite.add`, `sub`, `mul`)** — the sum, the difference and the product of
     finite numbers are the numbers nearest to those of their exact values, infinite ones included.
-/
import BlockStage.Proofs.Number.Nearest

namespace BlockStage

open Float.Model (UnpackedFloat totalExponent)
open Float.Model.UnpackedFloat

namespace Unpacked

/-! ## Rounding by two bits -/

/-- What is left of a mantissa after `k` of its bits have been dropped: the bits above, whether the
    dropped part is at least a half, and whether it is neither nought nor a half. -/
structure Codes (em : ExtendedMantissa) (m k : Nat) : Prop where
  mantissa : em.mantissa = m / 2 ^ k
  half : em.roundBit = true ↔ 2 ^ k ≤ 2 * (m % 2 ^ k)
  rest : em.stickyBit = true ↔ 2 * (m % 2 ^ k) ≠ 0 ∧ 2 * (m % 2 ^ k) ≠ 2 ^ k

theorem codes_whole (m : Nat) : Codes ⟨m, false, false⟩ m 0 := by
  refine ⟨?_, ?_, ?_⟩ <;> simp [Nat.mod_one]

variable {em : ExtendedMantissa} {m k : Nat}

theorem Codes.shiftRightOne (h : Codes em m k) : Codes em.shiftRightOne m (k + 1) := by
  have digit : m % 2 ^ (k + 1) = m % 2 ^ k + 2 ^ k * (m / 2 ^ k % 2) := Nat.mod_pow_succ
  have small : m % 2 ^ k < 2 ^ k := Nat.mod_lt _ (Nat.two_pow_pos k)
  have double : 2 ^ (k + 1) = 2 * 2 ^ k := by ring
  have binary : m / 2 ^ k % 2 = 0 ∨ m / 2 ^ k % 2 = 1 := Nat.mod_two_eq_zero_or_one _
  refine ⟨?_, ?_, ?_⟩
  · show em.mantissa / 2 = _
    rw [h.mantissa, Nat.div_div_eq_div_mul, Nat.pow_succ]
  · show (em.mantissa % 2 != 0) = true ↔ _
    rw [bne_iff_ne, h.mantissa, digit, double]
    rcases binary with b | b <;> rw [b] <;> omega
  · show (em.roundBit || em.stickyBit) = true ↔ _
    rw [Bool.or_eq_true, h.half, h.rest, digit, double]
    rcases binary with b | b <;> rw [b] <;> omega

theorem Codes.shiftRight (m k : Nat) : Codes ((⟨m, false, false⟩ : ExtendedMantissa) >>> k) m k := by
  show Codes (Nat.repeat ExtendedMantissa.shiftRightOne k _) m k
  induction k with
  | zero => exact codes_whole m
  | succ k ih => exact ih.shiftRightOne

/-- The two bits tell to which side to round. -/
theorem Codes.roundedMantissa (h : Codes em m k) :
    em.roundedMantissa = Format.roundHalfEven m (2 ^ k) := by
  obtain ⟨mantissa, round, sticky⟩ := em
  obtain ⟨rfl, half, rest⟩ := h
  rw [Format.roundHalfEven]
  cases round <;> cases sticky <;>
    simp only [Bool.false_eq_true, false_iff, true_iff, not_le, not_and, not_not] at half rest <;>
    simp only [ExtendedMantissa.roundedMantissa, ExtendedMantissa.accuracy,
      Accuracy.roundToNearestEven]
  · rw [if_pos half]
  · rw [if_pos half]
  · have equal := rest (by have := Nat.two_pow_pos k; omega)
    rw [if_neg (by omega), if_neg (by omega)]
  · rw [if_neg (by omega), if_pos (by omega)]

/-! ## Words -/

/-- The number of a word is made of the numbers of its parts. -/
theorem toNat_packComponents (s : Sign) (e : BitVec 11) (m : BitVec 52) :
    (packComponents .binary64 s e m).toNat
      = Format.double.word (Exact.isMinus s) e.toNat m.toNat := by
  show (s.toBitVec ++ e ++ m).toNat = _
  rw [BitVec.toNat_append, BitVec.toNat_append, ← Nat.shiftLeft_add_eq_or_of_lt m.isLt,
    ← Nat.shiftLeft_add_eq_or_of_lt e.isLt, Nat.shiftLeft_eq, Nat.shiftLeft_eq]
  cases s
  · show (1 * 2 ^ 11 + e.toNat) * 2 ^ 52 + m.toNat = 2 ^ 63 + (e.toNat * 2 ^ 52 + m.toNat)
    omega
  · show (0 * 2 ^ 11 + e.toNat) * 2 ^ 52 + m.toNat = 0 + (e.toNat * 2 ^ 52 + m.toNat)
    omega

theorem targetExponent_eq (m : Nat) (e : Int) :
    Float.Model.Format.targetExponent .binary64 (totalExponent m e) = Format.double.place m e := by
  have fraction : Format.double.fraction = 52 := rfl
  have lowest : Format.double.lowest = -1074 := rfl
  have bits : Float.Model.Format.mantissaBits .binary64 = 53 := rfl
  have least : Float.Model.Format.minExponent .binary64 = -1074 := rfl
  rw [Float.Model.Format.targetExponent, totalExponent, Format.place]
  split <;> omega

/-- The word of a number whose mantissa is as long as it can be. -/
theorem toNat_pack_finite (s : Sign) {m : Nat} {e : Int} (positive : 0 < m) (short : m < 2 ^ 53)
    (least : -1074 ≤ e) (normal : 2 ^ 52 ≤ m ∨ e = -1074) :
    (pack .binary64 (.finite s m e positive)).toNat = Format.double.sign (Exact.isMinus s)
      + min ((e + 1074).toNat * 2 ^ 52 + m) (2047 * 2 ^ 52) := by
  have field : (e + Float.Model.Format.exponentBias .binary64
      + Float.Model.Format.mantissaBitsWithoutImplicit .binary64).toNat = (e + 1075).toNat := by
    show (e + 1023 + 52).toNat = _
    omega
  have bits : Float.Model.Format.mantissaBits .binary64 = 53 := rfl
  rw [pack]
  simp only [field, bits]
  split
  · -- an infinite number
    rename_i large
    have large : 2048 ≤ (e + 1075).toNat + 1 := large
    rw [min_eq_right (by omega)]
    exact toNat_packComponents s (-1#11) 0
  · rename_i small
    have small : ¬2048 ≤ (e + 1075).toNat + 1 := small
    rw [min_eq_left (by omega)]
    split
    · rename_i high
      have high : 2 ^ 52 ≤ m := (Nat.log2_eq_iff positive.ne').mp (by omega : m.log2 = 52) |>.1
      refine (toNat_packComponents s _ _).trans ?_
      show _ + (_ * 2 ^ 52 + _) = _
      rw [BitVec.toNat_ofNat, BitVec.toNat_ofNat, Nat.mod_eq_of_lt (by omega)]
      omega
    · rename_i low
      have low : m < 2 ^ 52 := by
        by_contra high
        exact low (congrArg (· + 1) ((Nat.log2_eq_iff positive.ne').mpr ⟨not_lt.mp high, short⟩))
      refine (toNat_packComponents s _ _).trans ?_
      show _ + (0 * 2 ^ 52 + _) = _
      rw [BitVec.toNat_ofNat, Nat.mod_eq_of_lt low]
      omega

/-- One shift to the place at which a mantissa is rounded. -/
theorem shiftToTargetExponent_eq {m : Nat} {e : Int} (drops : e ≤ Format.double.place m e) :
    shiftToTargetExponent .binary64 m e .exact
      = ((⟨m, false, false⟩ : ExtendedMantissa) >>> (Format.double.place m e - e).toNat,
        Format.double.place m e) := by
  rw [shiftToTargetExponent, targetExponent_eq, shiftToExponent]
  refine Prod.ext rfl ?_
  show e + ((Format.double.place m e - e).toNat : Int) = _
  omega

/-- A number of a sign, a mantissa and an exponent, which is nought if the mantissa is. -/
def ofParts (s : Sign) (m : Nat) (e : Int) : UnpackedFloat :=
  if h : m = 0 then .zero s else .finite s m e (Nat.pos_of_ne_zero h)

/-- The word of a number whose mantissa is as long as it can be, or nought. -/
theorem toNat_pack_ofParts (s : Sign) {m : Nat} {e : Int} (short : m < 2 ^ 53)
    (least : -1074 ≤ e) (normal : 2 ^ 52 ≤ m ∨ e = -1074) :
    (pack .binary64 (ofParts s m e)).toNat = Format.double.sign (Exact.isMinus s)
      + min ((e + 1074).toNat * 2 ^ 52 + m) (2047 * 2 ^ 52) := by
  rw [ofParts]
  split
  · rename_i zero
    have nothing : (e + 1074).toNat = 0 := by omega
    rw [zero, nothing]
    exact toNat_packComponents s 0 0
  · exact toNat_pack_finite s _ short least normal

/-- What is kept of a mantissa is shifted once more after a carry, and left as it is otherwise. -/
theorem toNat_pack_kept (s : Sign) {kept : Nat} {place : Int} (carry : kept ≤ 2 ^ 53)
    (least : -1074 ≤ place) (high : -1074 < place → 2 ^ 52 ≤ kept) :
    (pack .binary64 (ofParts s (shiftToTargetExponent .binary64 kept place .exact).1.mantissa
        (shiftToTargetExponent .binary64 kept place .exact).2)).toNat
      = Format.double.sign (Exact.isMinus s)
        + min ((place + 1074).toNat * 2 ^ 52 + kept) (2047 * 2 ^ 52) := by
  have fraction : Format.double.fraction = 52 := rfl
  have lowest : Format.double.lowest = -1074 := rfl
  rcases carry.lt_or_eq with short | rfl
  · have bits : kept.log2 ≤ 52 := by
      by_cases zero : kept = 0
      · rw [zero]
        decide
      · exact Nat.lt_succ_iff.mp ((Nat.log2_lt zero).mpr short)
    have settled : Format.double.place kept place ≤ place := by
      rw [Format.place]
      split <;> omega
    have none : (Format.double.place kept place - place).toNat = 0 := by omega
    have left : shiftToTargetExponent .binary64 kept place .exact
        = (⟨kept, false, false⟩, place) := by
      rw [shiftToTargetExponent, targetExponent_eq, shiftToExponent, none]
      exact Prod.ext rfl (Int.add_zero place)
    have normal : 2 ^ 52 ≤ kept ∨ place = -1074 := by omega
    rw [left]
    exact toNat_pack_ofParts s short least normal
  · have next : Format.double.place (2 ^ 53) place = place + 1 := by
      rw [Format.place, Nat.log2_two_pow]
      split <;> omega
    have one : (place + 1 - place).toNat = 1 := by omega
    rw [shiftToTargetExponent_eq (next ▸ (Int.le_add_one le_rfl)), next, one]
    have shifted : (place + 1 + 1074).toNat * 2 ^ 52 + 2 ^ 52
        = (place + 1074).toNat * 2 ^ 52 + 2 ^ 53 := by omega
    rw [← shifted]
    exact toNat_pack_ofParts s (m := 2 ^ 53 / 2) (by decide) (by omega) (.inl (by decide))

/-- **A rounded mantissa has the word that is written for its exact value.** -/
theorem toNat_pack_round (s : Sign) {m : Nat} {e : Int} (positive : 0 < m)
    (drops : e ≤ Format.double.place m e) :
    (pack .binary64 (roundWithAccuracy .binary64 s m e .exact)).toNat
      = Format.double.encode (Exact.isMinus s) m e := by
  rw [Format.encode_eq_sign, Format.encode_eq positive.ne' drops, roundWithAccuracy,
    shiftToTargetExponent_eq drops]
  simp only [(Codes.shiftRight m _).roundedMantissa]
  exact toNat_pack_kept s (Format.kept_le drops) (Format.lowest_le_place .double m e)
    (Format.le_kept drops positive.ne')

end Unpacked

/-! ## Nearest numbers -/

section
variable {m n : Nat} {e f : Int}

/-- What has the word of an exact value is the number nearest to it. -/
theorem ofModel_pack_eq {u : UnpackedFloat} {x : Exact}
    (h : (pack .binary64 u).toNat = Format.double.encodeExact x) :
    Float.ofModel (.pack u) = doubleOf x := by
  rw [doubleOf, ← h]
  refine (Double.ofBits_toBits _).symm.trans (congrArg Float.ofBits ?_)
  exact UInt64.ofNat_toNat.symm

theorem nearest_zero (s : Sign) : Nearest 0 (.ofModel (.pack (.zero s))) := by
  refine ⟨Exact.isMinus s, 0, 0, ?_, ofModel_pack_eq (Unpacked.toNat_packComponents s 0 0)⟩
  cases s <;> norm_num [Exact.value, signed, Exact.isMinus]

/-- A mantissa of the right length is not rounded. -/
theorem nearest_finite (s : Sign) (hm : Exact.Canonical m e) (positive : 0 < m) :
    Nearest (signed (Exact.isMinus s) (m * 2 ^ e)) (.ofModel (.pack (.finite s m e positive))) := by
  have fraction : Format.double.fraction = 52 := rfl
  have lowest : Format.double.lowest = -1074 := rfl
  have place : Format.double.place m e = e := by
    have bits : m.log2 < 53 := (Nat.log2_lt positive.ne').mpr hm.short
    have least := hm.least
    rw [Format.place]
    rcases hm.normal with high | low
    · have top : 52 ≤ m.log2 := (Nat.le_log2 positive.ne').mpr high
      split <;> omega
    · split <;> omega
  refine ⟨Exact.isMinus s, m, e, rfl, ofModel_pack_eq ?_⟩
  rw [Unpacked.toNat_pack_finite s positive hm.short hm.least hm.normal, Format.encodeExact,
    Format.encode_eq_sign, Format.encode_eq positive.ne' place.ge, place, Int.sub_self]
  show _ = _ + min (_ + Format.roundHalfEven m 1) _
  rw [Format.roundHalfEven_one]
  rfl

theorem nearest_roundWithAccuracy (s : Sign) (positive : 0 < m)
    (drops : e ≤ Format.double.place m e) : Nearest (signed (Exact.isMinus s) (m * 2 ^ e))
      (.ofModel (.pack (roundWithAccuracy .binary64 s m e .exact))) :=
  ⟨Exact.isMinus s, m, e, rfl, ofModel_pack_eq (Unpacked.toNat_pack_round s positive drops)⟩

/-- A mantissa that is too short is lengthened before it is rounded. -/
theorem nearest_round (s : Sign) (positive : 0 < m) : Nearest (signed (Exact.isMinus s) (m * 2 ^ e))
    (.ofModel (.pack (round .binary64 s m e))) := by
  rw [UnpackedFloat.round]
  simp only [Unpacked.targetExponent_eq, decreaseExponent, Nat.shiftLeft_eq]
  generalize hk : (e - Format.double.place m e).toNat = k
  have drops : e - k ≤ Format.double.place (m * 2 ^ k) (e - k) := by
    have same : Format.double.place (m * 2 ^ k) (e - k) = Format.double.place m e := by
      rw [Format.place, Format.place, Format.log2_mul_two_pow positive.ne']
      split <;> split <;> omega
    omega
  have value : ((m * 2 ^ k : Nat) : ℚ) * 2 ^ (e - k) = m * 2 ^ e := by
    rw [Nat.cast_mul, Nat.cast_pow, mul_assoc, Nat.cast_ofNat, ← zpow_natCast,
      ← zpow_add₀ (by norm_num), add_sub_cancel]
  rw [← value]
  exact nearest_roundWithAccuracy s (Nat.mul_pos positive (Nat.two_pow_pos k)) drops

theorem nearest_normalize (i : ℤ) (e : Int) (s : Sign) :
    Nearest (i * 2 ^ e) (.ofModel (.pack (normalize .binary64 i e s))) := by
  rw [UnpackedFloat.normalize]
  rcases lt_trichotomy i 0 with less | rfl | more
  · rw [compare_lt_iff_lt.mpr less]
    have rounded := nearest_round .negative (m := (-i).toNat) (e := e) (by omega)
    have magnitude : (((-i).toNat : ℕ) : ℚ) = -i := by
      have : (((-i).toNat : ℕ) : ℤ) = -i := Int.toNat_of_nonneg (by omega)
      exact_mod_cast this
    rw [magnitude] at rounded
    simpa [signed, Exact.isMinus] using rounded
  · rw [compare_eq_iff_eq.mpr rfl, Int.cast_zero, zero_mul]
    exact nearest_zero s
  · rw [compare_gt_iff_gt.mpr more]
    have rounded := nearest_round .positive (m := i.toNat) (e := e) (by omega)
    have magnitude : ((i.toNat : ℕ) : ℚ) = i := by
      have : ((i.toNat : ℕ) : ℤ) = i := Int.toNat_of_nonneg (by omega)
      exact_mod_cast this
    rw [magnitude] at rounded
    exact rounded

/-- A mantissa with its sign at a lower exponent. -/
theorem apply_decreaseExponent (s : Sign) {low : Int} (h : low ≤ e) :
    ((s.apply ((decreaseExponent m e low).1 : Nat) : ℤ) : ℚ) * 2 ^ low
      = signed (Exact.isMinus s) ((m : ℚ) * 2 ^ e) := by
  have magnitude : ((decreaseExponent m e low).1 : ℚ) * 2 ^ low = m * 2 ^ e := by
    rw [decreaseExponent, Nat.shiftLeft_eq, Nat.cast_mul, Nat.cast_pow, Nat.cast_ofNat, mul_assoc,
      ← zpow_natCast, ← zpow_add₀ (by norm_num)]
    congr 2
    omega
  cases s
  · show ((-(_ : ℤ) : ℤ) : ℚ) * _ = -_
    rw [Int.cast_neg, Int.cast_natCast, neg_mul, magnitude]
  · show (((decreaseExponent m e low).1 : ℤ) : ℚ) * _ = _
    rw [Int.cast_natCast, magnitude]
    rfl

/-- The exponent of a product is not above the place at which it is rounded. -/
theorem le_place_mul (hm : Exact.Canonical m e) (hn : Exact.Canonical n f) (positiveM : 0 < m)
    (positiveN : 0 < n) : e + f ≤ Format.double.place (m * n) (e + f) := by
  have fraction : Format.double.fraction = 52 := rfl
  have lowest : Format.double.lowest = -1074 := rfl
  have positive : m * n ≠ 0 := (Nat.mul_pos positiveM positiveN).ne'
  by_cases high : 2 ^ 52 ≤ m * n
  · have top : 52 ≤ (m * n).log2 := (Nat.le_log2 positive).mpr high
    rw [Format.place]
    split <;> omega
  · have below : e = -1074 ∧ f = -1074 := by
      have := Nat.le_mul_of_pos_right m positiveN
      have := Nat.le_mul_of_pos_left n positiveM
      exact ⟨hm.normal.resolve_left (by omega), hn.normal.resolve_left (by omega)⟩
    have := Format.lowest_le_place .double (m * n) (e + f)
    omega

end

namespace Double

variable {x y : Float}

/-- A finite number is nought, or it has a mantissa that is as long as it can be. -/
theorem Finite.parts (hx : Finite x) :
    (∃ s, x.toModel.unpack = .zero s ∧ (exactOf x).value = 0) ∨
    ∃ s m e h, x.toModel.unpack = .finite s m e h ∧ Exact.Canonical m e ∧
      (exactOf x).value = signed (Exact.isMinus s) ((m : ℚ) * 2 ^ e) := by
  obtain ⟨negative, m, e, hx⟩ := hx
  have canonical := canonical hx
  rw [exactOf_eq] at hx ⊢
  cases unpacked : x.toModel.unpack with
  | infinity => rw [unpacked] at hx; cases hx
  | notANumber => rw [unpacked] at hx; cases hx
  | zero s =>
    refine .inl ⟨s, rfl, ?_⟩
    cases s <;> norm_num [Exact.ofUnpacked, Exact.value, signed, Exact.isMinus]
  | finite s n f h =>
    rw [unpacked] at hx
    obtain ⟨-, rfl, rfl⟩ := Exact.finite.inj hx
    exact .inr ⟨s, _, _, h, rfl, canonical, rfl⟩

/-- **A sum is rounded once.** -/
theorem Finite.add (hx : Finite x) (hy : Finite y) :
    Nearest ((exactOf x).value + (exactOf y).value) (x + y) := by
  show Nearest _ (.ofModel (.pack (UnpackedFloat.add .binary64 x.toModel.unpack y.toModel.unpack)))
  rcases hx.parts with ⟨s, ux, vx⟩ | ⟨s, m, e, positiveX, ux, canonicalX, vx⟩ <;>
    rcases hy.parts with ⟨t, uy, vy⟩ | ⟨t, n, f, positiveY, uy, canonicalY, vy⟩ <;>
    rw [ux, uy, vx, vy]
  · rw [add_zero]
    show Nearest 0 (.ofModel (.pack (if s == t then .zero s else .zero .positive)))
    split <;> exact nearest_zero _
  · rw [zero_add]
    exact nearest_finite t canonicalY positiveY
  · rw [add_zero]
    exact nearest_finite s canonicalX positiveX
  · rw [← apply_decreaseExponent s (min_le_left e f), ← apply_decreaseExponent t (min_le_right e f),
      ← add_mul, ← Int.cast_add]
    exact nearest_normalize _ _ _

/-- **A difference is rounded once.** -/
theorem Finite.sub (hx : Finite x) (hy : Finite y) :
    Nearest ((exactOf x).value - (exactOf y).value) (x - y) := by
  show Nearest _ (.ofModel (.pack (UnpackedFloat.sub .binary64 x.toModel.unpack y.toModel.unpack)))
  rcases hx.parts with ⟨s, ux, vx⟩ | ⟨s, m, e, positiveX, ux, canonicalX, vx⟩ <;>
    rcases hy.parts with ⟨t, uy, vy⟩ | ⟨t, n, f, positiveY, uy, canonicalY, vy⟩ <;>
    rw [ux, uy, vx, vy]
  · rw [sub_zero]
    show Nearest 0 (.ofModel (.pack (if s == -t then .zero s else .zero .positive)))
    split <;> exact nearest_zero _
  · have opposite : -signed (Exact.isMinus t) ((n : ℚ) * 2 ^ f)
        = signed (Exact.isMinus (-t)) ((n : ℚ) * 2 ^ f) := by
      cases t
      · exact neg_neg _
      · rfl
    rw [zero_sub, opposite]
    exact nearest_finite (-t) canonicalY positiveY
  · rw [sub_zero]
    exact nearest_finite s canonicalX positiveX
  · rw [← apply_decreaseExponent s (min_le_left e f), ← apply_decreaseExponent t (min_le_right e f),
      ← sub_mul, ← Int.cast_sub]
    exact nearest_normalize _ _ _

/-- **A product is rounded once.** -/
theorem Finite.mul (hx : Finite x) (hy : Finite y) :
    Nearest ((exactOf x).value * (exactOf y).value) (x * y) := by
  show Nearest _ (.ofModel (.pack (UnpackedFloat.mul .binary64 x.toModel.unpack y.toModel.unpack)))
  rcases hx.parts with ⟨s, ux, vx⟩ | ⟨s, m, e, positiveX, ux, canonicalX, vx⟩ <;>
    rcases hy.parts with ⟨t, uy, vy⟩ | ⟨t, n, f, positiveY, uy, canonicalY, vy⟩ <;>
    rw [ux, uy, vx, vy]
  · rw [mul_zero]
    exact nearest_zero _
  · rw [zero_mul]
    exact nearest_zero _
  · rw [mul_zero]
    exact nearest_zero _
  · have product : signed (Exact.isMinus s) ((m : ℚ) * 2 ^ e)
        * signed (Exact.isMinus t) ((n : ℚ) * 2 ^ f)
        = signed (Exact.isMinus (s * t)) (((m * n : Nat) : ℚ) * 2 ^ (e + f)) := by
      have magnitude : (m : ℚ) * 2 ^ e * (n * 2 ^ f) = (m * n : Nat) * 2 ^ (e + f) := by
        rw [zpow_add₀ (by norm_num)]
        push_cast
        ring
      cases s <;> cases t
      · exact (neg_mul_neg _ _).trans magnitude
      · exact (neg_mul _ _).trans (congrArg _ magnitude)
      · exact (mul_neg _ _).trans (congrArg _ magnitude)
      · exact magnitude
    rw [product]
    exact nearest_roundWithAccuracy (s * t) (Nat.mul_pos positiveX positiveY)
      (le_place_mul canonicalX canonicalY positiveX positiveY)

end Double

end BlockStage
