/-
  Binary floating numbers, taken apart and put together exactly.

  A finite number of either width is `± mantissa · 2 ^ exponent` with a natural mantissa, so every
  question about it (its floor, its digits, its remainder by another number) is a question about
  naturals.  The way back is one rounding, to nearest with ties to the even mantissa.

  The crux is `Format.encode`: with `q` the place of the last kept bit, the encoded word is
  `(q - lowest) · 2 ^ fraction + mantissa`.  The same sum serves subnormal numbers (where `q` is
  the lowest place) and normal ones, and a carry out of the mantissa lands in the exponent by
  itself.
-/

namespace BlockStage

/-- The two interchange formats: how many fraction bits, and how many exponent bits. -/
structure Format where
  fraction : Nat
  exponentBits : Nat
deriving Repr, DecidableEq

namespace Format

/-- Eight-byte numbers. -/
def double : Format := ⟨52, 11⟩

/-- Four-byte numbers. -/
def single : Format := ⟨23, 8⟩

/-- The place of the last bit of the smallest numbers, `2 ^ lowest` being the least positive one. -/
def lowest (f : Format) : Int := 2 - Nat.pow 2 (f.exponentBits - 1) - f.fraction

/-- The word of positive infinity. -/
def infinityWord (f : Format) : Nat := (Nat.pow 2 f.exponentBits - 1) * Nat.pow 2 f.fraction

/-- The weight of the sign bit in a word. -/
def signWeight (f : Format) : Nat := Nat.pow 2 (f.fraction + f.exponentBits)

end Format

/-- What a floating number is, exactly. -/
inductive Exact where
  | nan
  | infinite (negative : Bool)
  | finite (negative : Bool) (mantissa : Nat) (exponent : Int)
deriving Repr, DecidableEq

namespace Format

/-- Reads a word of the format. -/
def decode (f : Format) (word : Nat) : Exact :=
  let negative := decide (f.signWeight ≤ word)
  let magnitude := word % f.signWeight
  let field := magnitude / Nat.pow 2 f.fraction
  let low := magnitude % Nat.pow 2 f.fraction
  if field = Nat.pow 2 f.exponentBits - 1 then
    if low = 0 then .infinite negative else .nan
  else if field = 0 then .finite negative low f.lowest
  else .finite negative (low + Nat.pow 2 f.fraction) (f.lowest + (field - 1 : Nat))

/-- `num / den` to the nearest natural, a half going to the even neighbour. -/
def roundHalfEven (num den : Nat) : Nat :=
  let q := num / den
  let r := 2 * (num % den)
  if r < den then q else if den < r then q + 1 else q + q % 2

/-- The word of the number nearest to `± mantissa · 2 ^ exponent`, ties to even; numbers too
    large become infinite. -/
def encode (f : Format) (negative : Bool) (mantissa : Nat) (exponent : Int) : Nat :=
  let sign := if negative then f.signWeight else 0
  if mantissa = 0 then sign
  else
    let top := exponent + Nat.log2 mantissa - f.fraction
    let place := if top < f.lowest then f.lowest else top
    let kept :=
      if place ≤ exponent then mantissa * Nat.pow 2 (exponent - place).toNat
      else roundHalfEven mantissa (Nat.pow 2 (place - exponent).toNat)
    let word := (place - f.lowest).toNat * Nat.pow 2 f.fraction + kept
    sign + min word f.infinityWord

/-- The word of the number nearest to `± num / den`: enough quotient bits to round correctly, and
    one sticky bit for the rest. -/
def encodeRatio (f : Format) (negative : Bool) (num den : Nat) : Nat :=
  if num = 0 then f.encode negative 0 0
  else
    let shift := f.fraction + 4 + Nat.log2 den - Nat.log2 num
    let scaled := num * Nat.pow 2 shift
    let sticky := if scaled % den = 0 then 0 else 1
    f.encode negative (2 * (scaled / den) + sticky) (-(shift : Int) - 1)

/-- The word of the exact value `x`; all not-a-numbers become one. -/
def encodeExact (f : Format) : Exact → Nat
  | .nan => f.infinityWord + Nat.pow 2 (f.fraction - 1)
  | .infinite negative => (if negative then f.signWeight else 0) + f.infinityWord
  | .finite negative m e => f.encode negative m e

end Format

/-! ## The two float types -/

/-- The exact value of an eight-byte number. -/
def exactOf (x : Float) : Exact := Format.double.decode x.toBits.toNat

/-- The exact value of a four-byte number. -/
def exactOfSingle (x : Float32) : Exact := Format.single.decode x.toBits.toNat

/-- The eight-byte number nearest to an exact value. -/
def doubleOf (x : Exact) : Float := Float.ofBits (UInt64.ofNat (Format.double.encodeExact x))

/-- The four-byte number nearest to an exact value. -/
def singleOf (x : Exact) : Float32 := Float32.ofBits (UInt32.ofNat (Format.single.encodeExact x))

/-- Every four-byte number is an eight-byte number. -/
def widen (x : Float32) : Float := doubleOf (exactOfSingle x)

/-- The nearest four-byte number. -/
def narrow (x : Float) : Float32 := singleOf (exactOf x)

/-- The eight-byte number nearest to an integer. -/
def doubleOfInt (i : Int) : Float := doubleOf (.finite (decide (i < 0)) i.natAbs 0)

/-- The four-byte number nearest to an integer. -/
def singleOfInt (i : Int) : Float32 := singleOf (.finite (decide (i < 0)) i.natAbs 0)

example : exactOf 0.75 = .finite false (3 * Nat.pow 2 51) (-53) := by decide +kernel
example : (doubleOf (.finite true 3 (-2)) == -0.75) = true := by decide +kernel
example : (narrow 16777217 == 16777216) = true := by decide +kernel

end BlockStage
