/-
  Words: a floating number can be told from its word, and from its exact value.

  1. **Writing (`Format.encode_shift`)** — what is written of an exact value does not depend on how it
     is split into mantissa and exponent.

  2. **Reading (`Format.decode_word`, `Format.encode_ofFields`)** — a word with a sign, an exponent
     field that is not full, and low bits is read as a finite number, and written again from it.

  3. **The result (`narrow_widen`)** — no four-byte number is lost when it is made an eight-byte one: it
     has the same exact value, split otherwise.
-/
import BlockStage.Proofs.Number.Order

namespace BlockStage

open Float.Model (UnpackedFloat)
open Float.Model.UnpackedFloat (pack unpack packComponents unpackSign unpackExponent unpackMantissa)

namespace Format

variable {f : Format}

/-! ## Rounding -/

theorem roundHalfEven_one (n : Nat) : roundHalfEven n 1 = n := by
  rw [roundHalfEven, Nat.mod_one, Nat.div_one]
  exact if_pos (by decide)

/-- Rounding depends on the ratio only. -/
theorem roundHalfEven_mul (n d : Nat) {c : Nat} (hc : 0 < c) :
    roundHalfEven (n * c) (d * c) = roundHalfEven n d := by
  have remainder : 2 * (n * c % (d * c)) = 2 * (n % d) * c := by
    rw [Nat.mul_mod_mul_right, Nat.mul_assoc]
  rw [roundHalfEven, roundHalfEven, Nat.mul_div_mul_right _ _ hc, remainder]
  simp only [Nat.mul_lt_mul_right hc]

/-- What is kept of a mantissa at a place is the rounded ratio of two natural numbers. -/
theorem kept_eq (m : Nat) (e place : Int) :
    (if place ≤ e then m * Nat.pow 2 (e - place).toNat
      else roundHalfEven m (Nat.pow 2 (place - e).toNat))
      = roundHalfEven (m * 2 ^ (e - place).toNat) (2 ^ (place - e).toNat) := by
  split
  · rename_i whole
    have none : (place - e).toNat = 0 := by omega
    rw [none, Nat.pow_zero, roundHalfEven_one]
    rfl
  · have none : (e - place).toNat = 0 := by omega
    rw [none, Nat.pow_zero, Nat.mul_one]
    rfl

/-- The implicit bit is the highest one. -/
theorem log2_add_of_lt {m n : Nat} (h : m < 2 ^ n) : (m + 2 ^ n).log2 = n := by
  have positive : m + 2 ^ n ≠ 0 := by omega
  have above : (m + 2 ^ n).log2 < n + 1 := by
    rw [Nat.log2_lt positive, Nat.pow_succ]
    omega
  have least : n ≤ (m + 2 ^ n).log2 := (Nat.le_log2 positive).mpr (Nat.le_add_left _ _)
  omega

theorem log2_mul_two_pow {m : Nat} (h : m ≠ 0) (k : Nat) : (m * 2 ^ k).log2 = m.log2 + k := by
  induction k with
  | zero => rw [Nat.pow_zero, Nat.mul_one, Nat.add_zero]
  | succ k ih =>
    have positive : m * 2 ^ k ≠ 0 := Nat.mul_ne_zero h (Nat.two_pow_pos k).ne'
    rw [Nat.pow_succ, ← Nat.mul_assoc, Nat.mul_comm, Nat.log2_two_mul positive, ih, Nat.add_assoc]

/-- **Encoding depends on the exact value only.** -/
theorem encode_shift (f : Format) (negative : Bool) (m : Nat) (e : Int) (k : Nat) :
    f.encode negative (m * 2 ^ k) (e - k) = f.encode negative m e := by
  by_cases zero : m = 0
  · rw [zero, Nat.zero_mul, encode, encode, if_pos rfl, if_pos rfl]
  have positive : m * 2 ^ k ≠ 0 := Nat.mul_ne_zero zero (Nat.two_pow_pos k).ne'
  have same : e - k + ((m * 2 ^ k).log2 : Nat) - f.fraction = e + (m.log2 : Nat) - f.fraction := by
    rw [log2_mul_two_pow zero]
    omega
  rw [encode, encode, if_neg positive, if_neg zero]
  dsimp only
  rw [same]
  generalize (if e + (m.log2 : Nat) - f.fraction < f.lowest then f.lowest
    else e + (m.log2 : Nat) - f.fraction) = place
  -- both are the ratio of the mantissa to the place
  have kept : roundHalfEven (m * 2 ^ k * 2 ^ (e - k - place).toNat) (2 ^ (place - (e - k)).toNat)
      = roundHalfEven (m * 2 ^ (e - place).toNat) (2 ^ (place - e).toNat) := by
    have balance : k + (e - k - place).toNat + (place - e).toNat
        = (e - place).toNat + (place - (e - k)).toNat := by omega
    rw [← roundHalfEven_mul _ _ (Nat.two_pow_pos (place - e).toNat),
      ← roundHalfEven_mul (m * 2 ^ (e - place).toNat) _ (Nat.two_pow_pos (place - (e - k)).toNat)]
    simp only [Nat.mul_assoc, ← Nat.pow_add]
    rw [balance, Nat.add_comm (place - e).toNat]
  rw [kept_eq, kept_eq, kept]

/-! ## Words -/

/-- The sign bit of a word. -/
def sign (f : Format) (negative : Bool) : Nat := if negative then f.signWeight else 0

/-- The word with a sign, an exponent field and low bits. -/
def word (f : Format) (negative : Bool) (field low : Nat) : Nat :=
  f.sign negative + (field * 2 ^ f.fraction + low)

/-- The exact value of such a word, unless all bits of the field are set. -/
def ofFields (f : Format) (negative : Bool) (field low : Nat) : Exact :=
  if field = 0 then .finite negative low f.lowest
  else .finite negative (low + 2 ^ f.fraction) (f.lowest + (field - 1 : Nat))

theorem signWeight_eq (f : Format) : f.signWeight = 2 ^ f.exponentBits * 2 ^ f.fraction := by
  rw [← Nat.pow_add, Nat.add_comm]
  rfl

/-- Writing a mantissa of which no bit is dropped. -/
theorem encode_in_place (negative : Bool) {m : Nat} {e : Int} (positive : m ≠ 0)
    (place : (if e + (m.log2 : Nat) - f.fraction < f.lowest then f.lowest
      else e + (m.log2 : Nat) - f.fraction) = e) :
    f.encode negative m e =
      f.sign negative + min ((e - f.lowest).toNat * 2 ^ f.fraction + m) f.infinityWord := by
  rw [encode, if_neg positive]
  simp only [place]
  rw [if_pos le_rfl, Int.sub_self]
  show _ + min (_ * 2 ^ f.fraction + m * 2 ^ 0) _ = _
  rw [Nat.pow_zero, Nat.mul_one]
  rfl

section
variable (negative : Bool) {field low : Nat} (fits : field < 2 ^ f.exponentBits - 1)
  (small : low < 2 ^ f.fraction)
include fits

theorem infinityWord_lt_signWeight : f.infinityWord < f.signWeight := by
  rw [signWeight_eq]
  show (2 ^ f.exponentBits - 1) * 2 ^ f.fraction < _
  exact Nat.mul_lt_mul_of_pos_right (by omega) (Nat.two_pow_pos _)

include small

theorem magnitude_lt_infinityWord : field * 2 ^ f.fraction + low < f.infinityWord := by
  have above : (field + 1) * 2 ^ f.fraction ≤ f.infinityWord := Nat.mul_le_mul_right _ fits
  rw [Nat.succ_mul] at above
  omega

theorem decode_word : f.decode (f.word negative field low) = f.ofFields negative field low := by
  have magnitude := magnitude_lt_infinityWord fits small
  have weight := infinityWord_lt_signWeight fits
  have minus : decide (f.signWeight ≤ f.word negative field low) = negative := by
    cases negative
    · exact decide_eq_false (by rw [word, sign, if_neg Bool.false_ne_true]; omega)
    · exact decide_eq_true (by rw [word, sign, if_pos rfl]; omega)
  have rest : f.word negative field low % f.signWeight = field * 2 ^ f.fraction + low := by
    cases negative
    · rw [word, sign, if_neg Bool.false_ne_true, Nat.zero_add, Nat.mod_eq_of_lt (by omega)]
    · rw [word, sign, if_pos rfl, Nat.add_mod_left, Nat.mod_eq_of_lt (by omega)]
  have high : (field * 2 ^ f.fraction + low) / Nat.pow 2 f.fraction = field := by
    show (field * 2 ^ f.fraction + low) / 2 ^ f.fraction = field
    rw [Nat.add_comm, Nat.add_mul_div_right _ _ (Nat.two_pow_pos _), Nat.div_eq_of_lt small,
      Nat.zero_add]
  have bits : (field * 2 ^ f.fraction + low) % Nat.pow 2 f.fraction = low := by
    show (field * 2 ^ f.fraction + low) % 2 ^ f.fraction = low
    rw [Nat.add_comm, Nat.add_mul_mod_self_right, Nat.mod_eq_of_lt small]
  rw [decode, minus, rest, high, bits, if_neg (by show field ≠ 2 ^ f.exponentBits - 1; omega)]
  rfl

/-- **Writing the exact value of a word gives the word.** -/
theorem encode_ofFields :
    f.encodeExact (f.ofFields negative field low) = f.word negative field low := by
  have magnitude := (magnitude_lt_infinityWord fits small).le
  rw [ofFields, word]
  by_cases least : field = 0
  · rw [if_pos least, encodeExact]
    rw [least, Nat.zero_mul, Nat.zero_add] at magnitude ⊢
    by_cases zero : low = 0
    · rw [encode, if_pos zero, zero]
      rfl
    · have below := (Nat.log2_lt zero).mpr small
      rw [encode_in_place negative zero (if_pos (by omega)), Int.sub_self, Int.toNat_zero,
        Nat.zero_mul, Nat.zero_add, min_eq_left magnitude]
  · have top : f.lowest + ((field - 1 : Nat) : Int) + ((low + 2 ^ f.fraction).log2 : Nat) - f.fraction
        = f.lowest + (field - 1 : Nat) := by
      rw [log2_add_of_lt small, Int.add_sub_cancel]
    have whole : (field - 1) * 2 ^ f.fraction + (low + 2 ^ f.fraction)
        = field * 2 ^ f.fraction + low := by
      obtain ⟨n, rfl⟩ := Nat.exists_eq_succ_of_ne_zero least
      rw [Nat.succ_sub_one, Nat.succ_mul]
      omega
    rw [if_neg least, encodeExact, encode_in_place negative (by omega) (by rw [top, if_neg (by omega)]),
      add_sub_cancel_left, Int.toNat_natCast, whole, min_eq_left magnitude]

end

/-- A word of a finite number has such fields. -/
theorem word_of_decode {w m : Nat} {negative : Bool} {e : Int} (bound : w < 2 * f.signWeight)
    (h : f.decode w = .finite negative m e) :
    ∃ field low, field < 2 ^ f.exponentBits - 1 ∧ low < 2 ^ f.fraction ∧
      w = f.word negative field low := by
  have weight := signWeight_eq f
  have positive : 0 < f.signWeight := by
    rw [weight]
    exact Nat.mul_pos (Nat.two_pow_pos _) (Nat.two_pow_pos _)
  have below : w % f.signWeight / 2 ^ f.fraction < 2 ^ f.exponentBits := by
    rw [Nat.div_lt_iff_lt_mul (Nat.two_pow_pos _), ← weight]
    exact Nat.mod_lt _ positive
  have magnitude := Nat.div_add_mod' (w % f.signWeight) (2 ^ f.fraction)
  refine ⟨w % f.signWeight / 2 ^ f.fraction, w % f.signWeight % 2 ^ f.fraction, ?_,
    Nat.mod_lt _ (Nat.two_pow_pos _), ?_⟩
  · have partly : w % f.signWeight / 2 ^ f.fraction ≠ 2 ^ f.exponentBits - 1 := by
      intro all
      have all : w % f.signWeight / Nat.pow 2 f.fraction = Nat.pow 2 f.exponentBits - 1 := all
      rw [decode, if_pos all] at h
      split at h <;> cases h
    omega
  · have minus : negative = decide (f.signWeight ≤ w) := by
      rw [decode] at h
      split at h
      · split at h <;> cases h
      · split at h
        · exact (Exact.finite.inj h).1.symm
        · exact (Exact.finite.inj h).1.symm
    rw [word, magnitude, minus, sign]
    by_cases large : f.signWeight ≤ w
    · rw [decide_eq_true large, if_pos rfl, Nat.mod_eq_sub_mod large, Nat.mod_eq_of_lt (by omega)]
      omega
    · rw [decide_eq_false large, if_neg Bool.false_ne_true, Nat.mod_eq_of_lt (by omega), Nat.zero_add]

/-- A finite number has a word of which the exponent field is not full. -/
theorem exists_fields {w m : Nat} {negative : Bool} {e : Int} (bound : w < 2 * f.signWeight)
    (h : f.decode w = .finite negative m e) :
    ∃ field low, field < 2 ^ f.exponentBits - 1 ∧ low < 2 ^ f.fraction ∧
      w = f.word negative field low ∧ f.ofFields negative field low = .finite negative m e := by
  obtain ⟨field, low, fits, small, word⟩ := word_of_decode bound h
  refine ⟨field, low, fits, small, word, ?_⟩
  rw [← decode_word negative fits small, ← word]
  exact h

end Format

/-! ## Packing -/

namespace Unpacked

variable {spec : Float.Model.Format}

/-- A word is made of its three parts. -/
theorem packComponents_parts {b : BitVec spec.numBits} {e : BitVec spec.exponentBits}
    {m : BitVec spec.mantissaBitsWithoutImplicit} (exponent : unpackExponent b = e)
    (mantissa : unpackMantissa b = m) :
    packComponents spec (.ofBitVec (unpackSign b)) e m = b := by
  have sign : (UnpackedFloat.Sign.ofBitVec (unpackSign b)).toBitVec = unpackSign b := by
    rcases BitVec.eq_zero_or_eq_one (unpackSign b) with h | h <;> rw [h] <;> rfl
  rw [← exponent, ← mantissa, packComponents, sign, unpackSign, unpackExponent, unpackMantissa]
  ext i hi
  grind

section
variable {b : BitVec spec.numBits} {e : Int}

/-- A subnormal number has the least exponent, and its mantissa lacks the highest bit. -/
theorem pack_subnormal (wide : 2 ≤ spec.exponentBits) (least : unpackExponent b = 0#_)
    (field : e + spec.exponentBias + spec.mantissaBitsWithoutImplicit = 1)
    (positive : 0 < (unpackMantissa b).toNat) :
    pack spec (.finite (.ofBitVec (unpackSign b)) (unpackMantissa b).toNat e positive) = b := by
  have four : 2 ^ 2 ≤ 2 ^ spec.exponentBits := Nat.pow_le_pow_right (by decide) wide
  have low : (unpackMantissa b).toNat.log2 + 1 ≠ spec.mantissaBits := by
    have below := (Nat.log2_lt positive.ne').mpr (unpackMantissa b).isLt
    rw [Float.Model.Format.mantissaBits]
    omega
  rw [pack]
  simp only [field]
  rw [if_neg (by omega), if_neg low, BitVec.ofNat_toNat, BitVec.setWidth_eq]
  exact packComponents_parts least rfl

/-- A normal number has an exponent that is not full, and the highest bit is implicit. -/
theorem pack_normal (partly : unpackExponent b ≠ -1#_)
    (field : e + spec.exponentBias + spec.mantissaBitsWithoutImplicit = (unpackExponent b).toNat)
    (positive : 0 < (1#1 ++ unpackMantissa b).toNat) :
    pack spec (.finite (.ofBitVec (unpackSign b)) (1#1 ++ unpackMantissa b).toNat e positive)
      = b := by
  have exponentBound := (unpackExponent b).isLt
  have mantissaBound := (unpackMantissa b).isLt
  have whole := toNat_implicit (unpackMantissa b)
  have high : (1#1 ++ unpackMantissa b).toNat.log2 + 1 = spec.mantissaBits := by
    rw [whole, Format.log2_add_of_lt mantissaBound, Float.Model.Format.mantissaBits, Nat.add_comm]
  have below : (unpackExponent b).toNat ≠ 2 ^ spec.exponentBits - 1 := by
    intro all
    refine partly (BitVec.eq_of_toNat_eq (all.trans ?_))
    rw [BitVec.neg_one_eq_allOnes, BitVec.toNat_allOnes]
  rw [pack]
  simp only [field, Int.toNat_natCast]
  rw [if_neg (by omega), if_pos high, BitVec.ofNat_toNat, BitVec.setWidth_eq]
  refine packComponents_parts rfl (BitVec.eq_of_toNat_eq ?_)
  rw [whole, BitVec.toNat_ofNat, Nat.add_mod_right, Nat.mod_eq_of_lt mantissaBound]

/-- **Packing puts a word together again that has been unpacked.**  Of the words for not-a-number
    only one comes back. -/
theorem pack_unpack (wide : 2 ≤ spec.exponentBits) (valid : spec.Valid b) :
    pack spec (unpack spec b) = b := by
  rw [unpack]
  split
  · rename_i full
    split
    · exact packComponents_parts full ‹_›
    · exact (valid.eq_packedNaN full ‹_›).symm
  rename_i partly
  split
  · rename_i least
    split
    · exact packComponents_parts least ‹_›
    · refine pack_subnormal wide least ?_ _
      rw [least, BitVec.toNat_zero]
      omega
  · exact pack_normal partly (by omega) _

end

end Unpacked

/-! ## The two float types -/

theorem Single.ofBits_toBits (x : Float32) : Float32.ofBits x.toBits = x := by
  obtain ⟨⟨bits, valid⟩⟩ := x
  have same : pack .binary32 (unpack .binary32 bits.toBitVec) = bits.toBitVec :=
    Unpacked.pack_unpack (by decide) valid
  show Float32.ofModel ⟨UInt32.ofBitVec (pack .binary32 (unpack .binary32 bits.toBitVec)), _⟩ = _
  simp only [same]

theorem Double.ofBits_toBits (x : Float) : Float.ofBits x.toBits = x := by
  obtain ⟨⟨bits, valid⟩⟩ := x
  have same : pack .binary64 (unpack .binary64 bits.toBitVec) = bits.toBitVec :=
    Unpacked.pack_unpack (by decide) valid
  show Float.ofModel ⟨UInt64.ofBitVec (pack .binary64 (unpack .binary64 bits.toBitVec)), _⟩ = _
  simp only [same]

/-- An eight-byte number is told from its word. -/
theorem Double.eq_of_toBits {x y : Float} (h : x.toBits = y.toBits) : x = y := by
  rw [← ofBits_toBits x, h, ofBits_toBits]

/-- A word of which the exponent field is not full is kept. -/
theorem Double.toBits_ofBits {w : UInt64}
    (partly : w.toNat / 2 ^ 52 % 2 ^ 11 ≠ 2 ^ 11 - 1) : (Float.ofBits w).toBits = w := by
  have exponent : (@unpackExponent .binary64 w.toBitVec).toNat = w.toNat / 2 ^ 52 % 2 ^ 11 := by
    simp [UnpackedFloat.unpackExponent_def, Nat.shiftRight_eq_div_pow]
  have valid : Float.Model.Format.binary64.Valid w.toBitVec := by
    refine ⟨fun full => absurd (exponent.symm.trans ?_) partly⟩
    rw [full]
    rfl
  have same : pack .binary64 (unpack .binary64 w.toBitVec) = w.toBitVec :=
    Unpacked.pack_unpack (by decide) valid
  show UInt64.ofBitVec (pack .binary64 (unpack .binary64 w.toBitVec)) = w
  rw [same]

/-- An eight-byte number has the exact value that it is made from. -/
theorem exactOf_doubleOf (negative : Bool) {field low : Nat}
    (fits : field < 2 ^ Format.double.exponentBits - 1) (small : low < 2 ^ Format.double.fraction) :
    exactOf (doubleOf (Format.double.ofFields negative field low))
      = Format.double.ofFields negative field low := by
  have magnitude : field * 2 ^ 52 + low < (2 ^ 11 - 1) * 2 ^ 52 :=
    Format.magnitude_lt_infinityWord fits small
  have bound : Format.double.word negative field low < 2 ^ 64 ∧
      Format.double.word negative field low / 2 ^ 52 % 2 ^ 11 ≠ 2 ^ 11 - 1 := by
    have least : low < 2 ^ 52 := small
    cases negative
    · show 0 + (field * 2 ^ 52 + low) < _ ∧ (0 + (field * 2 ^ 52 + low)) / _ % _ ≠ _
      omega
    · show 2 ^ 63 + (field * 2 ^ 52 + low) < _ ∧ (2 ^ 63 + (field * 2 ^ 52 + low)) / _ % _ ≠ _
      omega
  have word : (UInt64.ofNat (Format.double.word negative field low)).toNat
      = Format.double.word negative field low := by
    rw [UInt64.toNat_ofNat', Nat.mod_eq_of_lt bound.1]
  rw [exactOf, doubleOf, Format.encode_ofFields negative fits small,
    Double.toBits_ofBits (by rw [word]; exact bound.2), word]
  exact Format.decode_word negative fits small

theorem exactOf_doubleOf_zero (negative : Bool) (e : Int) :
    exactOf (doubleOf (.finite negative 0 e)) = .finite negative 0 (-1074) := by
  have nought : doubleOf (.finite negative 0 e)
      = doubleOf (Format.double.ofFields negative 0 0) := by
    rw [doubleOf, doubleOf, Format.ofFields, if_pos rfl, Format.encodeExact, Format.encodeExact,
      Format.encode, Format.encode, if_pos rfl, if_pos rfl]
  rw [nought]
  exact exactOf_doubleOf negative (by decide) (by decide)

/-- An exact value that is short enough is kept, its mantissa being made as long as it can be. -/
theorem exactOf_doubleOf_of_short (negative : Bool) {m : Nat} {e : Int} (zero : m ≠ 0)
    (short : m.log2 ≤ 52) (least : -1074 ≤ e - (52 - m.log2 : Nat))
    (most : e - (52 - m.log2 : Nat) ≤ 971) :
    exactOf (doubleOf (.finite negative m e))
      = .finite negative (m * 2 ^ (52 - m.log2)) (e - (52 - m.log2 : Nat)) := by
  have positive : m * 2 ^ (52 - m.log2) ≠ 0 := Nat.mul_ne_zero zero (Nat.two_pow_pos _).ne'
  have top : (m * 2 ^ (52 - m.log2)).log2 = 52 := by
    rw [Format.log2_mul_two_pow zero, Nat.add_sub_cancel' short]
  obtain ⟨above, below⟩ := (Nat.log2_eq_iff positive).mp top
  have parts : Format.double.ofFields negative (e - (52 - m.log2 : Nat) + 1075).toNat
      (m * 2 ^ (52 - m.log2) - 2 ^ 52)
      = .finite negative (m * 2 ^ (52 - m.log2)) (e - (52 - m.log2 : Nat)) := by
    have unit : 2 ^ Format.double.fraction = 2 ^ 52 := rfl
    have lowest : Format.double.lowest = -1074 := rfl
    rw [Format.ofFields, if_neg (by omega)]
    refine congrArg₂ (Exact.finite negative) ?_ ?_ <;> omega
  have same : doubleOf (.finite negative m e)
      = doubleOf (.finite negative (m * 2 ^ (52 - m.log2)) (e - (52 - m.log2 : Nat))) := by
    rw [doubleOf, doubleOf, Format.encodeExact, Format.encodeExact, Format.encode_shift]
  rw [same, ← parts]
  refine exactOf_doubleOf negative ?_ ?_
  · show _ < 2 ^ 11 - 1
    omega
  · show _ < 2 ^ 52
    omega

section
variable {x : Float32} {negative : Bool} {m : Nat} {e : Int}
  (finite : exactOfSingle x = .finite negative m e)
include finite

/-- How large the mantissa and the exponent of a four-byte number can be. -/
theorem bounds_of_exactOfSingle : m < 2 ^ 24 ∧ -149 ≤ e ∧ e ≤ 104 := by
  obtain ⟨field, low, fits, small, -, parts⟩ :=
    Format.exists_fields (f := .single) x.toBits.toNat_lt finite
  have fits : field < 255 := fits
  have small : low < 2 ^ 23 := small
  have lowest : Format.single.lowest = -149 := rfl
  rw [Format.ofFields] at parts
  split at parts
  · obtain ⟨-, rfl, rfl⟩ := Exact.finite.inj parts
    omega
  · obtain ⟨-, rfl, rfl⟩ := Exact.finite.inj parts
    have unit : 2 ^ Format.single.fraction = 2 ^ 23 := rfl
    omega

/-- **Made an eight-byte number it has the same exact value**, its mantissa being longer. -/
theorem exactOf_widen : ∃ k : Nat, exactOf (widen x) = .finite negative (m * 2 ^ k) (e - k) := by
  obtain ⟨mantissa, least, most⟩ := bounds_of_exactOfSingle finite
  rw [widen, finite]
  by_cases zero : m = 0
  · refine ⟨(e + 1074).toNat, ?_⟩
    rw [zero, exactOf_doubleOf_zero, Nat.zero_mul]
    exact congrArg (Exact.finite negative 0) (by omega)
  · have short : m.log2 < 24 := (Nat.log2_lt zero).mpr mantissa
    exact ⟨52 - m.log2,
      exactOf_doubleOf_of_short negative zero (by omega) (by omega) (by omega)⟩

/-- **No four-byte number is lost when it is made an eight-byte one.** -/
theorem narrow_widen : narrow (widen x) = x := by
  obtain ⟨field, low, fits, small, word, parts⟩ :=
    Format.exists_fields (f := .single) x.toBits.toNat_lt finite
  obtain ⟨k, wide⟩ := exactOf_widen finite
  have same : Format.single.encodeExact (.finite negative (m * 2 ^ k) (e - k))
      = x.toBits.toNat := by
    rw [word, ← Format.encode_ofFields negative fits small, parts]
    exact Format.encode_shift .single negative m e k
  rw [narrow, wide, singleOf, same]
  exact (congrArg Float32.ofBits UInt32.ofNat_toNat).trans (Single.ofBits_toBits x)

end

end BlockStage
