/-
  Draws stay in range.

  1. **Specification (`InRange`)** — a draw between two bounds is between the lesser and the greater of
     them, both included, and it is a whole number when whole numbers are asked for.

  2. **Fractions (`Generator.within_between`, `interpolate_between`)** — a draw is a multiple of the
     span that is added to the lower bound, and draws beyond the upper bound are repeated.  Where the
     span itself is too large for a number, the bounds are on either side of nought, so each is
     scaled towards nought before the two are added.

  3. **What fails (`drawBetween_whole`)** — whole numbers are drawn between the ceiling of the lower
     bound and the floor of the upper one, both brought to 64 bits.  If no whole number of that range
     is between the bounds, the ceiling is taken, and it is out of range.
-/
import BlockStage.Random
import BlockStage.Session.Call
import BlockStage.Session.Evaluation
import BlockStage.Script.Compiler
import BlockStage.Proofs.Number.Arithmetic
import BlockStage.Proofs.Number.Whole
import BlockStage.Proofs.Script.Diagnosis

namespace BlockStage

open Double (Finite)

/-- The value of a finite number. -/
abbrev valueOf (x : Float) : ℚ := (exactOf x).value

theorem isFinite_iff_finite {x : Float} : isFinite x = true ↔ Finite x := by
  rw [isFinite, Double.Finite]
  cases exactOf x <;> simp

theorem finite_zero : Finite 0 := ⟨false, 0, -1074, by decide +kernel⟩

theorem valueOf_zero : valueOf 0 = 0 := by
  have zero : exactOf 0 = .finite false 0 (-1074) := by decide +kernel
  rw [valueOf, zero]
  norm_num [Exact.value, signed]

theorem finite_one : Finite 1 := ⟨false, 2 ^ 52, -52, by decide +kernel⟩

theorem valueOf_one : valueOf 1 = 1 := by
  have one : exactOf 1 = .finite false (2 ^ 52) (-52) := by decide +kernel
  rw [valueOf, one]
  norm_num [Exact.value, signed]

/-- A finite number between two others, both included. -/
structure Drawn (low high x : Float) : Prop where
  finite : Finite x
  least : valueOf low ≤ valueOf x
  most : valueOf x ≤ valueOf high

namespace Generator

/-! ## Whole numbers -/

theorem below_lt {range : Nat} (positive : 0 < range) (zone fuel : Nat) (g : Generator) :
    (below range zone fuel g).1 < range := by
  have high (v : UInt64) : v.toNat * range / 2 ^ 64 < range := by
    rw [Nat.div_lt_iff_lt_mul (Nat.two_pow_pos _), Nat.mul_comm]
    exact Nat.mul_lt_mul_of_pos_left v.toNat_lt positive
  induction fuel generalizing g with
  | zero => exact high _
  | succ fuel ih =>
    rw [below]
    dsimp only
    split
    · exact high _
    · exact ih _

/-- A draw from a range of 64-bit integers is in it. -/
theorem between_bounds {low high : Int} (order : low < high) (least : -2 ^ 63 ≤ low)
    (most : high ≤ 2 ^ 63 - 1) (g : Generator) :
    low ≤ (between low high g).1 ∧ (between low high g).1 ≤ high := by
  rw [between]
  dsimp only
  have whole : ((Nat.pow 2 64 : Nat) : Int) = 18446744073709551616 := rfl
  rw [whole]
  split
  · -- the range holds all 64-bit integers
    have all : low = -2 ^ 63 ∧ high = 2 ^ 63 - 1 := by omega
    have bounds := g.next.1.toInt64.le_toInt
    have bounds' := g.next.1.toInt64.toInt_le
    exact ⟨by rw [all.1]; exact bounds, by rw [all.2]; exact bounds'⟩
  · rename_i some
    have drawn := below_lt (Nat.pos_of_ne_zero some)
      (((high - low + 1) % 18446744073709551616).toNat
        * Nat.pow 2 (63 - ((high - low + 1) % 18446744073709551616).toNat.log2) - 1) patience g
    refine ⟨Int.le_add_of_nonneg_right (Int.natCast_nonneg _), ?_⟩
    show low + ((below _ _ _ _).1 : Int) ≤ high
    omega

/-! ## Fractions -/

/-- What is rounded from a value between nought and one is between them. -/
theorem drawn_of_unit {q : ℚ} {x : Float} (hx : Nearest q x) (least : 0 ≤ q) (most : q ≤ 1) :
    Drawn 0 1 x := by
  obtain ⟨finite, above, below⟩ := hx.between finite_zero finite_one
    (valueOf_zero.trans_le least) (most.trans_eq valueOf_one.symm)
  exact ⟨finite, above, below⟩

/-- So many random bits as a fraction. -/
theorem drawn_fraction (v : UInt64) (bits : Nat) (h : bits ≤ 64) :
    Drawn 0 1 (doubleOf (.finite false (v.toNat / 2 ^ (64 - bits)) (-bits))) := by
  have small : v.toNat / 2 ^ (64 - bits) < 2 ^ bits := by
    rw [Nat.div_lt_iff_lt_mul (Nat.two_pow_pos _), ← Nat.pow_add, Nat.add_sub_cancel' h]
    exact v.toNat_lt
  refine drawn_of_unit ⟨_, _, _, rfl, rfl⟩ (Exact.scaled_nonneg _ _) ?_
  show ((v.toNat / 2 ^ (64 - bits) : ℕ) : ℚ) * 2 ^ (-(bits : ℤ)) ≤ 1
  rw [zpow_neg, zpow_natCast, ← div_eq_mul_inv, div_le_one (by positivity)]
  exact_mod_cast small.le

/-- **A draw from a span that is a number** is between the bounds. -/
theorem within_drawn {low high : Float} (hl : Finite low) (hh : Finite high)
    (order : valueOf low ≤ valueOf high) (span : Finite (high - low)) (fuel : Nat) (g : Generator) :
    Drawn low high (within low high fuel g).1 := by
  induction fuel generalizing g with
  | zero => exact ⟨hl, le_rfl, order⟩
  | succ fuel ih =>
    rw [within]
    dsimp only
    split
    · rename_i below
      obtain ⟨unit, least, most⟩ := drawn_fraction g.next.1 52 (by decide)
      rw [valueOf_zero] at least
      rw [valueOf_one] at most
      have wide : 0 ≤ valueOf (high - low) := valueOf_zero.symm.trans_le
        ((hh.sub hl).le_value span finite_zero (valueOf_zero.trans_le (sub_nonneg.mpr order)))
      obtain ⟨part, positive, -⟩ := (unit.mul span).between finite_zero span
        (valueOf_zero.trans_le (mul_nonneg least wide)) (mul_le_of_le_one_left wide most)
      have above := hl.nearest.le (part.add hl)
        (le_add_of_nonneg_left (valueOf_zero.symm.trans_le positive))
      have below := Double.le_of_lt below
      have finite := hl.between hh above below
      exact ⟨finite, (hl.le_iff finite).mp above, (finite.le_iff hh).mp below⟩
    · exact ih _

end Generator

/-- Bounds whose difference is too large for a number are on either side of nought. -/
theorem opposite_of_span {low high : Float} (hl : Finite low) (hh : Finite high)
    (order : valueOf low ≤ valueOf high) (span : ¬Finite (high - low)) :
    valueOf low ≤ 0 ∧ 0 ≤ valueOf high := by
  have difference := hh.sub hl
  constructor
  · by_contra positive
    refine span (difference.between finite_zero hh ?_ ?_).1
    · exact valueOf_zero.trans_le (sub_nonneg.mpr order)
    · exact sub_le_self _ (le_of_lt (not_le.mp positive))
  · by_contra negative
    obtain ⟨top, finite, value⟩ := hl.exists_neg
    refine span (difference.between finite_zero finite ?_ ?_).1
    · exact valueOf_zero.trans_le (sub_nonneg.mpr order)
    · rw [value, sub_eq_neg_add]
      exact add_le_of_nonpos_right (le_of_lt (not_le.mp negative))

/-- **A draw between bounds that are far apart** is a mean of the two that is not out of range. -/
theorem interpolate_drawn {low high t : Float} (hl : Finite low) (hh : Finite high)
    (opposite : valueOf low ≤ 0 ∧ 0 ≤ valueOf high) (ht : Drawn 0 1 t) :
    Drawn low high (low * (1 - t) + high * t) := by
  obtain ⟨negative, positive⟩ := opposite
  have leastT := valueOf_zero.symm.trans_le ht.least
  have mostT := ht.most.trans_eq valueOf_one
  have rest : Drawn 0 1 (1 - t) := by
    refine Generator.drawn_of_unit (finite_one.sub ht.finite) ?_ ?_
    · exact sub_nonneg.mpr ht.most
    · rw [← valueOf, valueOf_one]
      exact sub_le_self _ leastT
  have leastR := valueOf_zero.symm.trans_le rest.least
  have mostR := rest.most.trans_eq valueOf_one
  obtain ⟨finiteL, aboveL, belowL⟩ := (hl.mul rest.finite).between hl finite_zero
    (le_mul_of_le_one_right negative mostR)
    ((mul_nonpos_of_nonpos_of_nonneg negative leastR).trans_eq valueOf_zero.symm)
  obtain ⟨finiteH, aboveH, belowH⟩ := (hh.mul ht.finite).between finite_zero hh
    (valueOf_zero.trans_le (mul_nonneg positive leastT)) (mul_le_of_le_one_right positive mostT)
  obtain ⟨finite, above, below⟩ := (finiteL.add finiteH).between hl hh
    ((le_add_of_nonneg_right (valueOf_zero.symm.trans_le aboveH)).trans' aboveL)
    ((add_le_of_nonpos_left (belowL.trans_eq valueOf_zero)).trans belowH)
  exact ⟨finite, above, below⟩

/-! ## Draws between two bounds -/

/-- A whole number between two bounds in order. -/
def drawWhole (low high : Float) (g : Generator) : Float × Generator :=
  let first := toInt64 (ceilingOf low)
  let last := toInt64 (floorOf high)
  if last ≤ first then (doubleOfInt first, g)
  else
    let (i, g) := g.between first last
    (doubleOfInt i, g)

/-- A number between two bounds in order. -/
def drawFraction (low high : Float) (g : Generator) : Float × Generator :=
  if high - low ≤ Float.ofBits 0x3CB0000000000000 then (low, g)
  else if isFinite (high - low) then g.within low high Generator.patience
  else
    let (t, g) := g.fraction
    (low * (1 - t) + high * t, g)

theorem drawBetween_eq (a b : Float) (whole : Bool) (g : Generator) :
    drawBetween a b whole g =
      if !isFinite a || !isFinite b then (0, g)
      else
        let (low, high) := if a ≤ b then (a, b) else (b, a)
        if whole then drawWhole low high g else drawFraction low high g := rfl

section
variable {low high : Float} (hl : Finite low) (hh : Finite high)
include hl hh

theorem drawFraction_drawn (order : valueOf low ≤ valueOf high) (g : Generator) :
    Drawn low high (drawFraction low high g).1 := by
  rw [drawFraction]
  split
  · exact ⟨hl, le_rfl, order⟩
  · split
    · rename_i span
      exact Generator.within_drawn hl hh order (isFinite_iff_finite.mp span) _ g
    · rename_i span
      rw [isFinite_iff_finite] at span
      exact interpolate_drawn hl hh (opposite_of_span hl hh order span)
        (Generator.drawn_fraction g.next.1 53 (by decide))

/-- A whole draw is nearest to an integer between the ceiling of the lower bound and the floor of the
    upper one, both brought to 64 bits, or to the former if they are not in order. -/
theorem exists_drawWhole (g : Generator) :
    ∃ i : ℤ, (drawWhole low high g).1 = doubleOfInt i ∧
      max (-2 ^ 63) (min (2 ^ 63 - 1) ⌈valueOf low⌉) ≤ i ∧
      i ≤ max (max (-2 ^ 63) (min (2 ^ 63 - 1) ⌈valueOf low⌉))
        (max (-2 ^ 63) (min (2 ^ 63 - 1) ⌊valueOf high⌋)) := by
  obtain ⟨finiteC, ceiling⟩ := hl.ceiling
  obtain ⟨finiteF, floor⟩ := hh.floor
  rw [drawWhole, Double.toInt64_eq finiteC ceiling, Double.toInt64_eq finiteF floor]
  dsimp only
  split
  · exact ⟨_, rfl, le_rfl, le_max_left _ _⟩
  · rename_i order
    obtain ⟨least, most⟩ := Generator.between_bounds (not_le.mp order) (le_max_left _ _)
      (max_le (by decide) (min_le_left _ _)) g
    exact ⟨_, rfl, least, most.trans (le_max_right _ _)⟩

theorem drawWhole_drawn (g : Generator) :
    isWhole (drawWhole low high g).1 = true ∧
      (Drawn low high (drawWhole low high g).1 ↔
        ∃ i : ℤ, |i| ≤ 2 ^ 63 ∧ valueOf low ≤ i ∧ i ≤ valueOf high) := by
  obtain ⟨i, drawn, least, most⟩ := exists_drawWhole hl hh g
  have whole : isWhole (doubleOfInt i) = true :=
    Double.isWhole_doubleOfInt ((le_max_left _ _).trans least) (by omega)
  have stays {j : ℤ} (hj : Nearest j (doubleOfInt i)) (above : valueOf low ≤ j)
      (below : j ≤ valueOf high) : Drawn low high (doubleOfInt i) := by
    obtain ⟨finite, above, below⟩ := hj.between hl hh above below
    exact ⟨finite, above, below⟩
  rw [drawn]
  refine ⟨whole, fun h => ?_, ?_⟩
  · obtain ⟨finite, j, value⟩ := Double.isWhole_iff.mp whole
    have leastI : (-2 ^ 63 : ℤ) ≤ i := (le_max_left _ _).trans least
    have mostI : i ≤ 2 ^ 63 := by omega
    obtain ⟨-, leastX, mostX⟩ := Double.between_powers (Double.nearest_doubleOfInt i) true false
      (e := 11) (f := 11) (by decide) (by decide)
      (by norm_num [signed]; exact_mod_cast leastI) (by norm_num [signed]; exact_mod_cast mostI)
    rw [value] at leastX mostX
    norm_num [signed] at leastX mostX
    refine ⟨j, abs_le.mpr ⟨by exact_mod_cast leastX, by exact_mod_cast mostX⟩, ?_, ?_⟩
    · exact h.least.trans_eq value
    · exact value.symm.trans_le h.most
  · rintro ⟨j, bound, above, below⟩
    obtain ⟨leastJ, mostJ⟩ := abs_le.mp bound
    have ceiling := Int.ceil_le.mpr above
    have floor := Int.le_floor.mpr below
    by_cases high : ⌈valueOf low⌉ ≤ 2 ^ 63 - 1
    · exact stays (Double.nearest_doubleOfInt i) (Int.ceil_le.mp (by omega))
        (Int.le_floor.mp (by omega))
    · -- the greatest number of 64 bits is rounded up to the only one that is possible
      have last : i = 2 ^ 63 - 1 := by omega
      have only : j = 2 ^ 63 := by omega
      have same : doubleOfInt (2 ^ 63 - 1) = doubleOfInt (2 ^ 63) := by
        have words : Format.double.encodeExact (.finite false (2 ^ 63 - 1) 0)
            = Format.double.encodeExact (.finite false (2 ^ 63) 0) := by decide +kernel
        exact congrArg (fun w => Float.ofBits (UInt64.ofNat w)) words
      refine stays (j := j) ?_ above below
      rw [last, same, only]
      exact Double.nearest_doubleOfInt _

end

/-- **A draw is in range** unless it is to be whole and no whole number is. -/
theorem drawBetween_inRange {a b : Float} (ha : Finite a) (hb : Finite b) (whole : Bool)
    (g : Generator) : Finite (drawBetween a b whole g).1 ∧
      (whole = true → isWhole (drawBetween a b whole g).1 = true) ∧
      (valueOf (drawBetween a b whole g).1 ∈ Set.uIcc (valueOf a) (valueOf b) ↔
        (whole = true → ∃ i : ℤ, |i| ≤ 2 ^ 63 ∧ (i : ℚ) ∈ Set.uIcc (valueOf a) (valueOf b))) := by
  -- the same for bounds in order
  have sorted {low high : Float} (hl : Finite low) (hh : Finite high)
      (order : valueOf low ≤ valueOf high) {x : Float}
      (hx : x = (if whole then drawWhole low high g else drawFraction low high g).1) :
      Finite x ∧ (whole = true → isWhole x = true) ∧
        (valueOf x ∈ Set.Icc (valueOf low) (valueOf high) ↔
          (whole = true → ∃ i : ℤ, |i| ≤ 2 ^ 63 ∧ (i : ℚ) ∈ Set.Icc (valueOf low) (valueOf high))) := by
    subst hx
    cases whole with
    | false =>
      have drawn := drawFraction_drawn hl hh order g
      exact ⟨drawn.finite, nofun, iff_of_true ⟨drawn.least, drawn.most⟩ nofun⟩
    | true =>
      obtain ⟨integral, drawn⟩ := drawWhole_drawn hl hh g
      have finite := (Double.isWhole_iff.mp integral).1
      exact ⟨finite, fun _ => integral, fun h _ => drawn.mp ⟨finite, h.1, h.2⟩,
        fun h => ⟨(drawn.mpr (h rfl)).least, (drawn.mpr (h rfl)).most⟩⟩
  rw [drawBetween_eq, isFinite_iff_finite.mpr ha, isFinite_iff_finite.mpr hb]
  by_cases order : a ≤ b
  · have values := (ha.le_iff hb).mp order
    rw [Set.uIcc_of_le values]
    exact sorted ha hb values (by simp [order])
  · have values : valueOf b ≤ valueOf a := le_of_not_ge fun h => order ((ha.le_iff hb).mpr h)
    rw [Set.uIcc_of_ge values]
    exact sorted hb ha values (by simp [order])

/-! ## Blocks -/

namespace Value

theorem finite_toNumber (v : Value) : Finite v.toNumber := by
  rw [← isFinite_iff_finite]
  cases v with
  | null => decide +kernel
  | bool flag => cases flag <;> decide +kernel
  | number n =>
    rw [toNumber]
    split
    · assumption
    · decide +kernel
  | text s =>
    rw [toNumber]
    cases read : readNumber? s with
    | none => decide +kernel
    | some x =>
      rw [readNumber?] at read
      split at read
      · split at read
        · cases read
          assumption
        · cases read
      · cases read

end Value

namespace Block

/-- The bound of a random range that a field of a block gives. -/
def bound (b : Block) (name : String) : Value := (b.fields.lookup name).getD (.number 0)

/-- The value that a block stands for, for an entity of a session. -/
def value (b : Block) (path : String) (c : CompileState) (s : Session) (entity : String)
    (g : Generator) : Value :=
  ((((Compile.exprOf b path).run c).1.eval s entity).run g).1

/-- Both bounds of a random range are given by fields. -/
structure RangeOfLiterals (b : Block) : Prop where
  kind : BlockKind.parse? b.type = some .randomRange
  first : b.inputs.lookup "FROM" = none
  last : b.inputs.lookup "TO" = none

/-- Does a random range of such bounds count as one of whole numbers? -/
def countsAsWhole (b : Block) : Bool := looksWhole (b.bound "FROM") && looksWhole (b.bound "TO")

variable {b : Block}

theorem value_of_range (h : b.RangeOfLiterals) (path : String) (c : CompileState) (s : Session)
    (entity : String) (g : Generator) : b.value path c s entity g = .number
      (drawBetween (b.bound "FROM").toNumber (b.bound "TO").toNumber b.countsAsWhole g).1 := by
  obtain ⟨type, fields, inputs, statements⟩ := b
  obtain ⟨kind, first, last⟩ := h
  have kind : BlockKind.parse? type = some .randomRange := kind
  have first : (Compile.slotsOf inputs).lookup "FROM" = none := by
    rw [Compile.lookup_slotsOf]
    exact congrArg (Option.map _) first
  have last : (Compile.slotsOf inputs).lookup "TO" = none := by
    rw [Compile.lookup_slotsOf]
    exact congrArg (Option.map _) last
  have literal (name : String) (empty : (Compile.slotsOf inputs).lookup name = none) :
      Compile.Site.literalWhole ⟨type, path, fields, Compile.slotsOf inputs, []⟩ name
        = looksWhole (Block.bound (.mk type fields inputs statements) name) := by
    rw [Compile.Site.literalWhole, empty]
    show _ = looksWhole ((fields.lookup name).getD (.number 0))
    dsimp only
    cases fields.lookup name with
    | some v => rfl
    | none => decide +kernel
  have constant (name : String) (empty : (Compile.slotsOf inputs).lookup name = none) :
      Compile.Site.number ⟨type, path, fields, Compile.slotsOf inputs, []⟩ name
        = pure (.const (Block.bound (.mk type fields inputs statements) name)) := by
    rw [Compile.Site.number, Compile.Site.value, empty]
    rfl
  have compiled : (Compile.exprOf (.mk type fields inputs statements) path).run c
      = (.random (countsAsWhole (.mk type fields inputs statements))
          (.const (bound (.mk type fields inputs statements) "FROM"))
          (.const (bound (.mk type fields inputs statements) "TO")), c) := by
    rw [Compile.exprOf, Compile.Site.plugged]
    simp only [kind]
    rw [if_pos (by decide), Compile.Site.expression]
    simp only [literal _ first, literal _ last, constant _ first, constant _ last]
    rfl
  rw [value, compiled]
  rfl

/-- **Random ranges stay in range** unless whole numbers are wanted and no whole number of 64 bits is
    between the bounds.  A draw is finite, and whole if it is to be, in any case. -/
theorem inRange_of_literals (h : b.RangeOfLiterals) (path : String) (c : CompileState) (s : Session)
    (entity : String) (g : Generator) : ∃ x, b.value path c s entity g = .number x ∧
      isFinite x = true ∧ (b.countsAsWhole = true → isWhole x = true) ∧
      (valueOf x ∈ Set.uIcc (valueOf (b.bound "FROM").toNumber) (valueOf (b.bound "TO").toNumber) ↔
        (b.countsAsWhole = true → ∃ i : ℤ, |i| ≤ 2 ^ 63 ∧
          (i : ℚ) ∈ Set.uIcc (valueOf (b.bound "FROM").toNumber)
            (valueOf (b.bound "TO").toNumber))) := by
  obtain ⟨finite, whole, range⟩ := drawBetween_inRange (Value.finite_toNumber _)
    (Value.finite_toNumber _) b.countsAsWhole g
  exact ⟨_, value_of_range h path c s entity g, isFinite_iff_finite.mpr finite, whole, range⟩

/-- A random range between two literals. -/
def range (first last : Value) : Block :=
  .mk "random_range" [("FROM", first), ("TO", last)] [] []

/-- Bounds that are given in the other order, one of them as a text with an exponent: five is between
    them, so what is drawn is. -/
theorem inRange_of_dice : (range (.text "1e1") (.number 3)).countsAsWhole = true ∧
    ∃ x, (range (.text "1e1") (.number 3)).value "0" ⟨[], 0⟩
        (.fresh .usual (Generator.ofSeed 1) 0) "a" (Generator.ofSeed 1) = .number x ∧
      isWhole x = true ∧ valueOf x ∈ Set.uIcc (valueOf (Value.text "1e1").toNumber) (valueOf 3) := by
  have counts : (range (.text "1e1") (.number 3)).countsAsWhole = true := by decide +kernel
  obtain ⟨x, value, -, whole, inRange⟩ := inRange_of_literals (b := range (.text "1e1") (.number 3))
    ⟨by decide +kernel, rfl, rfl⟩ "0" ⟨[], 0⟩ (.fresh .usual (Generator.ofSeed 1) 0) "a"
    (Generator.ofSeed 1)
  have ten : exactOf (Value.text "1e1").toNumber = .finite false (5 * 2 ^ 50) (-49) := by
    decide +kernel
  have three : exactOf (Value.number 3).toNumber = .finite false (3 * 2 ^ 51) (-51) := by
    decide +kernel
  have five : ((5 : ℤ) : ℚ) ∈ Set.uIcc (valueOf (Value.text "1e1").toNumber)
      (valueOf (Value.number 3).toNumber) := by
    rw [Set.mem_uIcc, valueOf, valueOf, ten, three]
    norm_num [Exact.value, signed]
  exact ⟨counts, x, value, whole counts, inRange.mpr fun _ => ⟨5, by decide, five⟩⟩

/-- **Draws out of range**: beyond 64 bits another number is drawn between a number and itself, and
    between texts that have no point, and yet a fraction, there may be no whole number. -/
theorem not_inRange_of_literals :
    ((range (.number 1e19) (.number 1e19)).countsAsWhole = true ∧
      (range (.number 1e19) (.number 1e19)).value "0" ⟨[], 0⟩ (.fresh .usual (Generator.ofSeed 1) 0)
        "a" (Generator.ofSeed 1) = .number (doubleOfInt (2 ^ 63)) ∧
      doubleOfInt (2 ^ 63) < 1e19) ∧
    ((range (.text "1e-1") (.text "2e-1")).countsAsWhole = true ∧
      (range (.text "1e-1") (.text "2e-1")).value "0" ⟨[], 0⟩
        (.fresh .usual (Generator.ofSeed 1) 0) "a" (Generator.ofSeed 1) = .number 1 ∧
      0.2 < (1 : Float)) := by
  refine ⟨⟨by decide +kernel, ?_, by decide +kernel⟩, by decide +kernel, ?_, by decide +kernel⟩
  · rw [value_of_range ⟨by decide +kernel, rfl, rfl⟩]
    exact congrArg Value.number (Double.eq_of_toBits (by decide +kernel))
  · rw [value_of_range ⟨by decide +kernel, rfl, rfl⟩]
    exact congrArg Value.number (Double.eq_of_toBits (by decide +kernel))

end Block

end BlockStage
