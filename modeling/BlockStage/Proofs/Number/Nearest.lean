/-
  Rounding keeps numbers in line.

  1. **Rank (`Double.compare_eq`)** — every eight-byte number but not-a-number has a place in the line
     of all of them, and two numbers compare as their places do.  The exact values of finite numbers
     stand in the same order (`Double.value_lt_iff`).

  2. **The crux (`Format.encode_le_encode`)** — the word of the number nearest to a value grows with
     the value.  Where two values are rounded at one place, halves going to the even neighbour keep
     their order; where they are rounded at different places, a carry of the smaller one is no more
     than the highest bit of the larger.

  3. **The result (`Nearest.le`)** — if one value is no more than another, so are the numbers nearest
     to them, and the number nearest to the exact value of a finite number is that number
     (`Double.nearest_self`).  So whatever is rounded stays between any finite numbers that it was
     between.
-/
import BlockStage.Proofs.Number.Word

namespace BlockStage

open Float.Model (UnpackedFloat)

/-! ## Values and ranks -/

/-- A magnitude with its sign. -/
def signed {α : Type} [Neg α] (negative : Bool) (n : α) : α := if negative then -n else n

namespace Exact

/-- The value of a finite number. -/
def value : Exact → ℚ
  | .finite negative m e => signed negative (m * 2 ^ e)
  | _ => 0

/-- The place of an eight-byte number in the line of all of them, counted from nought. -/
def rank : Exact → ℤ
  | .nan => 0
  | .infinite negative => signed negative (2047 * 2 ^ 52)
  | .finite negative m e => signed negative ((e + 1074) * 2 ^ 52 + m)

/-- Mantissa and exponent as they are in an eight-byte number. -/
structure Canonical (m : Nat) (e : Int) : Prop where
  short : m < 2 ^ 53
  least : -1074 ≤ e
  most : e ≤ 971
  normal : 2 ^ 52 ≤ m ∨ e = -1074

section
variable {m n : Nat} {e f : Int}

theorem scaled_nonneg (m : Nat) (e : Int) : (0 : ℚ) ≤ m * 2 ^ e := by positivity

/-- A number with a larger exponent is larger. -/
theorem scaled_lt (hm : m < 2 ^ 53) (hn : 2 ^ 52 ≤ n) (h : e < f) : (m : ℚ) * 2 ^ e < n * 2 ^ f := by
  have short : (m : ℚ) < 2 ^ (53 : ℤ) := by exact_mod_cast hm
  have normal : (2 : ℚ) ^ (52 : ℤ) ≤ n := by exact_mod_cast hn
  calc (m : ℚ) * 2 ^ e < 2 ^ (53 : ℤ) * 2 ^ e := by gcongr
    _ = 2 ^ (53 + e) := (zpow_add₀ (by norm_num) _ _).symm
    _ ≤ 2 ^ (52 + f) := zpow_le_zpow_right₀ (by norm_num) (by omega)
    _ = 2 ^ (52 : ℤ) * 2 ^ f := zpow_add₀ (by norm_num) _ _
    _ ≤ n * 2 ^ f := by gcongr

/-- Magnitudes and their places are in the same order. -/
theorem Canonical.lt_iff (hm : Canonical m e) (hn : Canonical n f) :
    (m : ℚ) * 2 ^ e < n * 2 ^ f ↔ (e + 1074) * 2 ^ 52 + m < (f + 1074) * 2 ^ 52 + (n : ℤ) := by
  obtain ⟨shortM, leastM, -, normalM⟩ := hm
  obtain ⟨shortN, leastN, -, normalN⟩ := hn
  rcases lt_trichotomy e f with less | rfl | more
  · exact iff_of_true (scaled_lt shortM (by omega) less) (by omega)
  · rw [mul_lt_mul_iff_left₀ (by positivity), Nat.cast_lt]
    omega
  · exact iff_of_false (scaled_lt shortN (by omega) more).le.not_gt (by omega)

theorem Canonical.rank_nonneg (hm : Canonical m e) : 0 ≤ (e + 1074) * 2 ^ 52 + (m : ℤ) := by
  have := hm.least
  omega

theorem Canonical.rank_lt (hm : Canonical m e) : (e + 1074) * 2 ^ 52 + (m : ℤ) < 2047 * 2 ^ 52 := by
  have := hm.most
  have := hm.short
  omega

theorem Canonical.rank_pos (hm : Canonical m e) (positive : 0 < m) :
    0 < (e + 1074) * 2 ^ 52 + (m : ℤ) := by
  have := hm.least
  omega

theorem canonical_zero : Canonical 0 (-1074) := ⟨by decide, le_rfl, by decide, .inr rfl⟩

/-- What is at most nought is less than what is at least nought, unless both are nought. -/
theorem neg_lt_iff_of_nonneg {α : Type} [AddCommGroup α] [LinearOrder α] [IsOrderedAddMonoid α]
    {a b : α} (ha : 0 ≤ a) (hb : 0 ≤ b) : -a < b ↔ 0 < a ∨ 0 < b := by
  rw [neg_lt_iff_pos_add]
  constructor
  · intro h
    by_contra none
    obtain ⟨noneA, noneB⟩ := not_or.mp none
    exact (add_nonpos (not_lt.mp noneB) (not_lt.mp noneA)).not_gt h
  · rintro (h | h)
    · exact add_pos_of_nonneg_of_pos hb h
    · exact add_pos_of_pos_of_nonneg h ha

/-- Values and ranks are in the same order. -/
theorem Canonical.value_lt_iff (hm : Canonical m e) (hn : Canonical n f) (a b : Bool) :
    (Exact.finite a m e).value < (Exact.finite b n f).value
      ↔ (Exact.finite a m e).rank < (Exact.finite b n f).rank := by
  have nought : (0 : ℚ) = (0 : ℕ) * 2 ^ (-1074 : ℤ) := by norm_num
  have zero : (0 : ℤ) = (-1074 + 1074) * 2 ^ 52 + (0 : ℕ) := by norm_num
  have valueM := scaled_nonneg m e
  have valueN := scaled_nonneg n f
  have rankM := hm.rank_nonneg
  have rankN := hn.rank_nonneg
  have positiveM := canonical_zero.lt_iff hm
  have positiveN := canonical_zero.lt_iff hn
  rw [← nought, ← zero] at positiveM positiveN
  cases a <;> cases b
  · exact hm.lt_iff hn
  · exact iff_of_false (not_lt.mpr ((neg_nonpos.mpr valueN).trans valueM))
      (not_lt.mpr ((neg_nonpos.mpr rankN).trans rankM))
  · show -((m : ℚ) * 2 ^ e) < n * 2 ^ f ↔ -((e + 1074) * 2 ^ 52 + (m : ℤ)) < (f + 1074) * 2 ^ 52 + n
    rw [neg_lt_iff_of_nonneg valueM valueN, neg_lt_iff_of_nonneg rankM rankN, positiveM, positiveN]
  · show -((m : ℚ) * 2 ^ e) < -(n * 2 ^ f) ↔ -((e + 1074) * 2 ^ 52 + (m : ℤ)) < -_
    rw [neg_lt_neg_iff, neg_lt_neg_iff]
    exact hn.lt_iff hm

end

end Exact

/-! ## Order -/

namespace Double

variable {x y : Float}

/-- Neither infinite nor not-a-number. -/
def Finite (x : Float) : Prop := ∃ negative m e, exactOf x = .finite negative m e

theorem exactOf_eq (x : Float) : exactOf x = .ofUnpacked .double x.toModel.unpack :=
  @decode_eq .binary64 _

theorem isNaN_eq_false_iff : x.isNaN = false ↔ exactOf x ≠ .nan := by
  rw [isNaN_eq_false, exactOf_eq]
  rcases x.toModel.unpack with _ | _ | _ | _ <;> simp [Exact.ofUnpacked]

theorem Finite.isNaN (hx : Finite x) : x.isNaN = false := by
  obtain ⟨negative, m, e, h⟩ := hx
  rw [isNaN_eq_false_iff, h]
  exact nofun

theorem canonical {negative : Bool} {m : Nat} {e : Int} (h : exactOf x = .finite negative m e) :
    Exact.Canonical m e := by
  obtain ⟨field, low, fits, small, -, parts⟩ :=
    Format.exists_fields (f := .double) x.toBits.toNat_lt h
  have fits : field < 2047 := fits
  have small : low < 2 ^ 52 := small
  have lowest : Format.double.lowest = -1074 := rfl
  have unit : 2 ^ Format.double.fraction = 2 ^ 52 := rfl
  rw [Format.ofFields] at parts
  split at parts
  · obtain ⟨-, rfl, rfl⟩ := Exact.finite.inj parts
    exact ⟨by omega, by omega, by omega, by omega⟩
  · obtain ⟨-, rfl, rfl⟩ := Exact.finite.inj parts
    exact ⟨by omega, by omega, by omega, by omega⟩

/-- Magnitudes compare by exponent and mantissa. -/
theorem compare_canonical {m n : Nat} {e f : Int} (hm : Exact.Canonical m e)
    (hn : Exact.Canonical n f) : (compare e f).then (compare m n)
      = compare ((e + 1074) * 2 ^ 52 + (m : ℤ)) ((f + 1074) * 2 ^ 52 + n) := by
  obtain ⟨shortM, leastM, -, normalM⟩ := hm
  obtain ⟨shortN, leastN, -, normalN⟩ := hn
  rcases lt_trichotomy e f with less | rfl | more
  · rw [compare_lt_iff_lt.mpr less]
    exact (compare_lt_iff_lt.mpr (by omega)).symm
  · rw [compare_eq_iff_eq.mpr rfl]
    rcases lt_trichotomy m n with less | rfl | more
    · exact (compare_lt_iff_lt.mpr less).trans (compare_lt_iff_lt.mpr (by omega)).symm
    · exact (compare_eq_iff_eq.mpr rfl).trans (compare_eq_iff_eq.mpr rfl).symm
    · exact (compare_gt_iff_gt.mpr more).trans (compare_gt_iff_gt.mpr (by omega)).symm
  · rw [compare_gt_iff_gt.mpr more]
    exact (compare_gt_iff_gt.mpr (by omega)).symm

/-- **Numbers compare as their places do.** -/
theorem compare_eq (hx : x.isNaN = false) (hy : y.isNaN = false) :
    x.toModel.unpack.compare y.toModel.unpack
      = some (compare (exactOf x).rank (exactOf y).rank) := by
  have canonicalX := @canonical x
  have canonicalY := @canonical y
  rw [isNaN_eq_false] at hx hy
  simp only [exactOf_eq] at canonicalX canonicalY ⊢
  generalize x.toModel.unpack = a at *
  generalize y.toModel.unpack = b at *
  have less {i j : ℤ} (h : i < j) : some .lt = some (compare i j) :=
    congrArg some (compare_lt_iff_lt.mpr h).symm
  have same {i j : ℤ} (h : i = j) : some .eq = some (compare i j) :=
    congrArg some (compare_eq_iff_eq.mpr h).symm
  have more {i j : ℤ} (h : j < i) : some .gt = some (compare i j) :=
    congrArg some (compare_gt_iff_gt.mpr h).symm
  have lowest : Format.double.lowest = -1074 := rfl
  -- two finite numbers of one sign compare by exponent and mantissa, all others by kind and sign
  rcases a with (_ | _) | _ | (_ | _) | ⟨_ | _, m, e, hm⟩ <;>
    rcases b with (_ | _) | _ | (_ | _) | ⟨_ | _, n, f, hn⟩ <;>
    simp only [Exact.ofUnpacked, Exact.isMinus, Exact.rank, signed, if_true, if_false,
      Bool.false_eq_true] at canonicalX canonicalY ⊢ <;>
    first
    | exact absurd rfl hx
    | exact absurd rfl hy
    | exact same rfl
    | exact less (by decide)
    | exact more (by decide)
    | (obtain ⟨-, leastX, mostX, -⟩ := canonicalX rfl
       obtain ⟨-, leastY, mostY, -⟩ := canonicalY rfl
       first
       | exact less (by omega)
       | exact more (by omega))
    | (obtain ⟨shortX, leastX, mostX, -⟩ := canonicalX rfl
       first
       | exact less (by omega)
       | exact more (by omega))
    | (obtain ⟨shortY, leastY, mostY, -⟩ := canonicalY rfl
       first
       | exact less (by omega)
       | exact more (by omega))
    | skip
  · refine (congrArg (fun o => some (Ordering.swap o))
      (compare_canonical (canonicalX rfl) (canonicalY rfl))).trans ?_
    rw [← Std.OrientedCmp.eq_swap]
    rcases lt_trichotomy ((e + 1074) * 2 ^ 52 + (m : ℤ)) ((f + 1074) * 2 ^ 52 + n) with h | h | h
    · rw [compare_gt_iff_gt.mpr h]
      exact more (by omega)
    · rw [compare_eq_iff_eq.mpr h.symm]
      exact same (by omega)
    · rw [compare_lt_iff_lt.mpr h]
      exact less (by omega)
  · exact congrArg some (compare_canonical (canonicalX rfl) (canonicalY rfl))

theorem le_iff_rank (hx : x.isNaN = false) (hy : y.isNaN = false) :
    x ≤ y ↔ (exactOf x).rank ≤ (exactOf y).rank := by
  rw [le_iff, compare_eq hx hy]
  exact Int.isLE_compare

theorem lt_iff_rank (hx : x.isNaN = false) (hy : y.isNaN = false) :
    x < y ↔ (exactOf x).rank < (exactOf y).rank := by
  rw [lt_iff, compare_eq hx hy, Option.some_inj]
  exact compare_lt_iff_lt

theorem le_of_lt (h : x < y) : x ≤ y := by
  obtain ⟨hx, hy⟩ := isNaN_of_compare (lt_iff.mp h)
  rw [lt_iff_rank hx hy] at h
  rw [le_iff_rank hx hy]
  exact h.le

/-- **Finite numbers are in the order of their exact values.** -/
theorem Finite.lt_iff (hx : Finite x) (hy : Finite y) :
    x < y ↔ (exactOf x).value < (exactOf y).value := by
  rw [lt_iff_rank hx.isNaN hy.isNaN]
  obtain ⟨a, m, e, hx⟩ := hx
  obtain ⟨b, n, f, hy⟩ := hy
  rw [hx, hy]
  exact ((canonical hx).value_lt_iff (canonical hy) a b).symm

theorem Finite.le_iff (hx : Finite x) (hy : Finite y) :
    x ≤ y ↔ (exactOf x).value ≤ (exactOf y).value := by
  rw [← not_lt, ← hy.lt_iff hx, lt_iff_rank hy.isNaN hx.isNaN, le_iff_rank hx.isNaN hy.isNaN, not_lt]

/-- Between finite numbers all numbers are finite. -/
theorem Finite.between {z : Float} (hx : Finite x) (hz : Finite z) (above : x ≤ y) (below : y ≤ z) :
    Finite y := by
  have number := (isNaN_of_le above).2
  rw [le_iff_rank hx.isNaN number] at above
  rw [le_iff_rank number hz.isNaN] at below
  rw [isNaN_eq_false_iff] at number
  obtain ⟨a, m, e, hx⟩ := hx
  obtain ⟨b, n, f, hz⟩ := hz
  have := (canonical hx).rank_nonneg
  have := (canonical hx).rank_lt
  have := (canonical hz).rank_nonneg
  have := (canonical hz).rank_lt
  cases hy : exactOf y with
  | nan => exact absurd hy number
  | finite => exact ⟨_, _, _, hy⟩
  | infinite negative =>
    rw [hx, hy] at above
    rw [hy, hz] at below
    cases a <;> cases b <;> cases negative <;>
      simp only [Exact.rank, signed, if_true, if_false, Bool.false_eq_true] at above below <;> omega

end Double


/-! ## Rounding -/

namespace Format

variable {f : Format}

theorem div_le_roundHalfEven (n d : Nat) : n / d ≤ roundHalfEven n d := by
  rw [roundHalfEven]
  split
  · rfl
  · split <;> omega

theorem roundHalfEven_le (n d : Nat) : roundHalfEven n d ≤ n / d + 1 := by
  rw [roundHalfEven]
  split
  · omega
  · split <;> omega

/-- Rounding at one place keeps the order. -/
theorem roundHalfEven_mono {m n : Nat} (h : m ≤ n) (d : Nat) :
    roundHalfEven m d ≤ roundHalfEven n d := by
  rcases (Nat.div_le_div_right (c := d) h).lt_or_eq with less | same
  · exact (roundHalfEven_le m d).trans (less.trans_le (div_le_roundHalfEven n d))
  · have rest : m % d ≤ n % d := by
      have hm := Nat.div_add_mod m d
      have hn := Nat.div_add_mod n d
      rw [same] at hm
      omega
    simp only [roundHalfEven, same]
    split <;> split <;> (try split) <;> (try split) <;> omega

/-- The place of the last bit that is kept of a mantissa. -/
def place (f : Format) (m : Nat) (e : Int) : Int :=
  if e + (m.log2 : Nat) - f.fraction < f.lowest then f.lowest else e + (m.log2 : Nat) - f.fraction

theorem lowest_le_place (f : Format) (m : Nat) (e : Int) : f.lowest ≤ f.place m e := by
  rw [place]
  split <;> omega

/-- The word of a magnitude of which bits are dropped. -/
theorem encode_eq {m : Nat} {e : Int} (positive : m ≠ 0) (drops : e ≤ f.place m e) :
    f.encode false m e = min ((f.place m e - f.lowest).toNat * 2 ^ f.fraction
      + roundHalfEven m (2 ^ (f.place m e - e).toNat)) f.infinityWord := by
  rw [encode, if_neg positive]
  show 0 + min (_ + (if f.place m e ≤ e then m * Nat.pow 2 (e - f.place m e).toNat
    else roundHalfEven m (Nat.pow 2 (f.place m e - e).toNat))) _ = _
  rw [kept_eq, Nat.zero_add, show (e - f.place m e).toNat = 0 by omega, Nat.pow_zero, Nat.mul_one]
  rfl

section
variable {m : Nat} {e : Int} (drops : e ≤ f.place m e)
include drops

/-- No more bits are kept than a mantissa has, but for a carry. -/
theorem kept_le : roundHalfEven m (2 ^ (f.place m e - e).toNat) ≤ 2 ^ (f.fraction + 1) := by
  refine (roundHalfEven_le _ _).trans ?_
  have bits : m.log2 + 1 ≤ f.fraction + 1 + (f.place m e - e).toNat := by
    rw [place] at drops ⊢
    split at drops <;> split <;> omega
  have small : m < 2 ^ (f.fraction + 1) * 2 ^ (f.place m e - e).toNat := by
    rw [← Nat.pow_add]
    exact (Nat.lt_log2_self).trans_le (Nat.pow_le_pow_right (by decide) bits)
  exact (Nat.div_lt_iff_lt_mul (Nat.two_pow_pos _)).mpr small

/-- Above the lowest place the highest bit is kept. -/
theorem le_kept (positive : m ≠ 0) (above : f.lowest < f.place m e) :
    2 ^ f.fraction ≤ roundHalfEven m (2 ^ (f.place m e - e).toNat) := by
  refine le_trans ?_ (div_le_roundHalfEven _ _)
  have bits : f.fraction + (f.place m e - e).toNat = m.log2 := by
    rw [place] at drops above ⊢
    split at drops <;> split <;> omega
  rw [Nat.le_div_iff_mul_le (Nat.two_pow_pos _), ← Nat.pow_add, bits]
  exact Nat.log2_self_le positive

end

/-- Words grow with mantissas, where both are rounded. -/
theorem encode_mono {m n : Nat} {e : Int} (low : e ≤ f.lowest) (h : m ≤ n) :
    f.encode false m e ≤ f.encode false n e := by
  by_cases zero : m = 0
  · rw [zero, encode, if_pos rfl]
    exact Nat.zero_le _
  have positive : n ≠ 0 := by omega
  have dropsM := low.trans (f.lowest_le_place m e)
  have dropsN := low.trans (f.lowest_le_place n e)
  rw [encode_eq zero dropsM, encode_eq positive dropsN]
  refine min_le_min_right _ ?_
  have places : f.place m e ≤ f.place n e := by
    have bits : m.log2 ≤ n.log2 := (Nat.le_log2 positive).mpr ((Nat.log2_self_le zero).trans h)
    rw [place, place]
    split <;> split <;> omega
  rcases places.lt_or_eq with less | same
  · -- a carry is the highest bit at the next place
    have carry := kept_le dropsM
    have least := f.lowest_le_place m e
    have high := le_kept dropsN positive (least.trans_lt less)
    have steps : (f.place m e - f.lowest).toNat + 1 ≤ (f.place n e - f.lowest).toNat := by omega
    calc _ ≤ (f.place m e - f.lowest).toNat * 2 ^ f.fraction + 2 ^ (f.fraction + 1) := by gcongr
      _ = ((f.place m e - f.lowest).toNat + 1) * 2 ^ f.fraction + 2 ^ f.fraction := by ring
      _ ≤ _ := by gcongr
  · rw [same]
    exact Nat.add_le_add_left (roundHalfEven_mono h _) _

/-- **Words grow with values.** -/
theorem encode_le_encode {m n : Nat} {e i : Int} (h : (m : ℚ) * 2 ^ e ≤ n * 2 ^ i) :
    f.encode false m e ≤ f.encode false n i := by
  -- both are brought to one exponent at which bits are dropped
  obtain ⟨k, hk⟩ : ∃ k : Nat, e - k = min (min e i) f.lowest :=
    ⟨(e - min (min e i) f.lowest).toNat, by omega⟩
  obtain ⟨l, hl⟩ : ∃ l : Nat, i - l = min (min e i) f.lowest :=
    ⟨(i - min (min e i) f.lowest).toNat, by omega⟩
  rw [← f.encode_shift false m e k, ← f.encode_shift false n i l, hk, hl]
  refine encode_mono (min_le_right _ _) ?_
  have split (j : Nat) (a : Int) : (2 : ℚ) ^ a = 2 ^ j * 2 ^ (a - j) := by
    rw [← zpow_natCast, ← zpow_add₀ (by norm_num)]
    congr 1
    omega
  rw [split k e, split l i, hk, hl, ← mul_assoc, ← mul_assoc,
    mul_le_mul_iff_left₀ (by positivity)] at h
  exact_mod_cast h

theorem encode_eq_zero {m : Nat} {e : Int} (h : (m : ℚ) * 2 ^ e ≤ 0) : f.encode false m e = 0 := by
  have none : m = 0 := by
    by_contra some
    have positive : (0 : ℚ) < m * 2 ^ e := by positivity
    exact h.not_gt positive
  rw [none, encode, if_pos rfl]
  rfl

theorem encode_eq_sign (f : Format) (negative : Bool) (m : Nat) (e : Int) :
    f.encode negative m e = f.sign negative + f.encode false m e := by
  rw [encode, encode]
  split
  · rfl
  · exact congrArg _ (Nat.zero_add _).symm

theorem encode_le_infinityWord (f : Format) (m : Nat) (e : Int) :
    f.encode false m e ≤ f.infinityWord := by
  rw [encode]
  split
  · exact Nat.zero_le _
  · exact (Nat.zero_add _).trans_le (min_le_right _ _)

end Format

/-! ## Nearest numbers -/

namespace Double

/-- What a rounded number is: the number of the rounded word, or infinite. -/
theorem exactOf_doubleOf_eq (negative : Bool) (m : Nat) (e : Int) :
    exactOf (doubleOf (.finite negative m e)) =
      if Format.double.encode false m e < 2047 * 2 ^ 52 then
        Format.double.ofFields negative (Format.double.encode false m e / 2 ^ 52)
          (Format.double.encode false m e % 2 ^ 52)
      else .infinite negative := by
  have bound : Format.double.encode false m e ≤ 2047 * 2 ^ 52 :=
    Format.encode_le_infinityWord .double m e
  rw [doubleOf, Format.encodeExact, Format.encode_eq_sign .double negative m e]
  generalize Format.double.encode false m e = w at *
  split
  · rename_i less
    have fits : w / 2 ^ 52 < 2047 := Nat.div_lt_of_lt_mul (by omega)
    have small : w % 2 ^ 52 < 2 ^ 52 := Nat.mod_lt _ (by decide)
    have word : Format.double.word negative (w / 2 ^ 52) (w % 2 ^ 52)
        = Format.double.sign negative + w := congrArg _ (Nat.div_add_mod' w (2 ^ 52))
    have exact := exactOf_doubleOf negative fits small
    rw [doubleOf, Format.encode_ofFields negative fits small, word] at exact
    exact exact
  · obtain rfl : w = 2047 * 2 ^ 52 := by omega
    cases negative <;> decide +kernel

/-- **The number nearest to a magnitude has its word for its place.** -/
theorem rank_doubleOf (negative : Bool) (m : Nat) (e : Int) :
    (exactOf (doubleOf (.finite negative m e))).rank
      = signed negative (Format.double.encode false m e : ℤ) := by
  have bound : Format.double.encode false m e ≤ 2047 * 2 ^ 52 :=
    Format.encode_le_infinityWord .double m e
  have lowest : Format.double.lowest = -1074 := rfl
  have unit : 2 ^ Format.double.fraction = 2 ^ 52 := rfl
  rw [exactOf_doubleOf_eq]
  generalize Format.double.encode false m e = w at *
  split
  · rw [Format.ofFields]
    split
    · refine congrArg (signed negative) ?_
      omega
    · refine congrArg (signed negative) ?_
      omega
  · refine congrArg (signed negative) ?_
    omega

/-- What is made of a magnitude is a number. -/
theorem isNaN_doubleOf (negative : Bool) (m : Nat) (e : Int) :
    (doubleOf (.finite negative m e)).isNaN = false := by
  rw [isNaN_eq_false_iff, exactOf_doubleOf_eq, Format.ofFields]
  split
  · split <;> exact fun h => by cases h
  · exact fun h => by cases h

end Double

/-- Is `x` the number nearest to a value? -/
def Nearest (q : ℚ) (x : Float) : Prop :=
  ∃ negative m e, (Exact.finite negative m e).value = q ∧ x = doubleOf (.finite negative m e)

section
variable {p q : ℚ} {x y : Float}

theorem Nearest.isNaN (hx : Nearest q x) : x.isNaN = false := by
  obtain ⟨negative, m, e, -, rfl⟩ := hx
  exact Double.isNaN_doubleOf negative m e

/-- **Rounding keeps the order.** -/
theorem Nearest.le (hx : Nearest p x) (hy : Nearest q y) (h : p ≤ q) : x ≤ y := by
  rw [Double.le_iff_rank hx.isNaN hy.isNaN]
  obtain ⟨a, m, e, rfl, rfl⟩ := hx
  obtain ⟨b, n, i, rfl, rfl⟩ := hy
  rw [Double.rank_doubleOf, Double.rank_doubleOf]
  have valueM := Exact.scaled_nonneg m e
  have valueN := Exact.scaled_nonneg n i
  cases a <;> cases b
  · exact Int.ofNat_le.mpr (Format.encode_le_encode h)
  · -- the one is at least nought and the other at most, so both are
    have h : (m : ℚ) * 2 ^ e ≤ -(n * 2 ^ i) := h
    have noneM := Format.encode_eq_zero (f := .double) (show (m : ℚ) * 2 ^ e ≤ 0 by linarith)
    have noneN := Format.encode_eq_zero (f := .double) (show (n : ℚ) * 2 ^ i ≤ 0 by linarith)
    rw [noneM, noneN]
    exact le_rfl
  · show -(Format.double.encode false m e : ℤ) ≤ (Format.double.encode false n i : ℤ)
    omega
  · exact neg_le_neg (Int.ofNat_le.mpr (Format.encode_le_encode (neg_le_neg_iff.mp h)))

/-- A finite number is made again from its exact value. -/
theorem Double.Finite.doubleOf_exactOf (hx : Double.Finite x) : doubleOf (exactOf x) = x := by
  obtain ⟨negative, m, e, h⟩ := hx
  obtain ⟨field, low, fits, small, word, parts⟩ :=
    Format.exists_fields (f := .double) x.toBits.toNat_lt h
  rw [h, ← parts, doubleOf, Format.encode_ofFields negative fits small, ← word]
  exact (congrArg Float.ofBits UInt64.ofNat_toNat).trans (Double.ofBits_toBits x)

/-- A finite number is nearest to its exact value. -/
theorem Double.Finite.nearest (hx : Double.Finite x) : Nearest (exactOf x).value x := by
  have same := hx.doubleOf_exactOf
  obtain ⟨negative, m, e, h⟩ := hx
  rw [h] at same
  exact ⟨negative, m, e, by rw [h], same.symm⟩

/-- To every finite number there is one of the other sign. -/
theorem Double.Finite.exists_neg (hx : Double.Finite x) :
    ∃ y, Double.Finite y ∧ (exactOf y).value = -(exactOf x).value := by
  obtain ⟨negative, m, e, h⟩ := hx
  obtain ⟨field, low, fits, small, -, parts⟩ :=
    Format.exists_fields (f := .double) x.toBits.toNat_lt h
  have opposite : Format.double.ofFields (!negative) field low = .finite (!negative) m e := by
    rw [Format.ofFields] at parts ⊢
    split at parts <;> cases parts <;> simp_all
  have exact := exactOf_doubleOf (!negative) fits small
  rw [opposite] at exact
  refine ⟨_, ⟨_, _, _, exact⟩, ?_⟩
  rw [exact, h]
  cases negative
  · rfl
  · exact (neg_neg _).symm

theorem Nearest.le_value {a : Float} (hx : Nearest q x) (finite : Double.Finite x)
    (ha : Double.Finite a) (h : (exactOf a).value ≤ q) : (exactOf a).value ≤ (exactOf x).value :=
  (ha.le_iff finite).mp (ha.nearest.le hx h)

/-- **What is rounded stays between the finite numbers that it was between.** -/
theorem Nearest.between {a b : Float} (hx : Nearest q x) (ha : Double.Finite a)
    (hb : Double.Finite b) (above : (exactOf a).value ≤ q) (below : q ≤ (exactOf b).value) :
    Double.Finite x ∧ (exactOf a).value ≤ (exactOf x).value ∧
      (exactOf x).value ≤ (exactOf b).value := by
  have least := ha.nearest.le hx above
  have most := hx.le hb.nearest below
  have finite := ha.between hb least most
  exact ⟨finite, (ha.le_iff finite).mp least, (finite.le_iff hb).mp most⟩

end

end BlockStage
