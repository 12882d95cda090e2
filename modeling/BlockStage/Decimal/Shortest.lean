/-
  The fewest decimal digits that read back as the same binary number.

  A finite number stands for every real that rounds to it: an interval around it whose ends belong
  to it exactly when its mantissa is even.  For one, two, … digits the two neighbours of the number
  on that decimal grid are tested for membership; the first grid with a member wins, of two members
  the nearer, and of two equally near the upper.

  All of it is arithmetic on naturals.  `Interval` holds the number and both ends as numerators
  over one denominator, so that a test is a comparison of products.

  The positional text never uses an exponent: digits, zeros and a point are enough.
-/
import BlockStage.Number.Binary

namespace BlockStage

namespace Shortest

/-- A positive number and the interval of reals that round to it, over one denominator. -/
structure Interval where
  low : Nat
  value : Nat
  high : Nat
  den : Nat
  inclusive : Bool
deriving Repr

/-- The interval of `mantissa · 2 ^ exponent`.  Below a power of two the neighbours are twice as
    close, except at the bottom of the range. -/
def interval (f : Format) (mantissa : Nat) (exponent : Int) : Interval :=
  let closer := decide (mantissa = Nat.pow 2 f.fraction) && decide (f.lowest < exponent)
  let up := Nat.pow 2 (exponent - 2).toNat
  { low := (4 * mantissa - if closer then 1 else 2) * up
    value := 4 * mantissa * up
    high := (4 * mantissa + 2) * up
    den := Nat.pow 2 (2 - exponent).toNat
    inclusive := decide (mantissa % 2 = 0) }

/-- Is `digits · num / den` in the interval? -/
def Interval.admits (i : Interval) (digits num den : Nat) : Bool :=
  let x := digits * num * i.den
  if i.inclusive then decide (i.low * den ≤ x) && decide (x ≤ i.high * den)
  else decide (i.low * den < x) && decide (x < i.high * den)

/-- The number of decimal digits of the integer part of `num / den`, less one: the place of the
    first digit, found by counting down from a place that is too high. -/
def leadingPlace (num den : Nat) : Int :=
  let rec down : Nat → Int → Int
    | 0, p => p
    | n + 1, p =>
      if Nat.pow 10 p.toNat * den ≤ num * Nat.pow 10 (-p).toNat then p else down n (p - 1)
  let guess : Int := (Nat.log2 num : Int) - Nat.log2 den + 1
  let top : Int := guess * 30103 / 100000 + 1
  down 6 top

/-- The best choice on the grid of step `10 ^ place`, if the grid meets the interval. -/
def Interval.onGrid (i : Interval) (place : Int) : Option Nat :=
  let num := Nat.pow 10 place.toNat
  let den := Nat.pow 10 (-place).toNat
  let lower := i.value * den / (num * i.den)
  let rest := i.value * den % (num * i.den)
  let lowerIn := decide (0 < lower) && i.admits lower num den
  let upperIn := i.admits (lower + 1) num den
  if lowerIn && upperIn then
    if 2 * rest < num * i.den then some lower else some (lower + 1)
  else if lowerIn then some lower
  else if upperIn then some (lower + 1)
  else none

/-- The digits and the place of the last one: tries `fuel` grids from `place` downwards. -/
def search (i : Interval) : Nat → Int → Nat × Int
  | 0, place => ((i.value * Nat.pow 10 (-place).toNat) / (Nat.pow 10 place.toNat * i.den), place)
  | fuel + 1, place =>
    match i.onGrid place with
    | some digits => (digits, place)
    | none => search i fuel (place - 1)

/-- The shortest digits of `mantissa · 2 ^ exponent` and the place of the last one.  Seventeen
    digits always suffice. -/
def digits (f : Format) (mantissa : Nat) (exponent : Int) : Nat × Int :=
  let i := interval f mantissa exponent
  search i 17 (leadingPlace i.value i.den)

end Shortest

/-! ## Positional text -/

/-- `digits · 10 ^ place` written with a point where needed and never with an exponent. -/
def positional (digits : Nat) (place : Int) : String :=
  let text := (Nat.toDigits 10 digits)
  if 0 ≤ place then
    String.ofList (text ++ List.replicate place.toNat '0')
  else
    let frac := (-place).toNat
    let padded := List.replicate (frac + 1 - text.length) '0' ++ text
    let whole := padded.take (padded.length - frac)
    let rest := ((padded.drop (padded.length - frac)).reverse.dropWhile (· == '0')).reverse
    String.ofList (if rest.isEmpty then whole else whole ++ '.' :: rest)

/-- The shortest positional text of an exact value of a format: a sign also on zero, and the three
    words for what is not finite. -/
def Exact.text (f : Format) : Exact → String
  | .nan => "NaN"
  | .infinite negative => if negative then "-inf" else "inf"
  | .finite negative m e =>
    let body :=
      if m = 0 then "0"
      else
        let d := Shortest.digits f m e
        positional d.1 d.2
    if negative then "-" ++ body else body

/-- The shortest text of an eight-byte number. -/
def doubleText (x : Float) : String := (exactOf x).text .double

/-- The shortest text of a four-byte number. -/
def singleText (x : Float32) : String := (exactOfSingle x).text .single

example : doubleText 0.1 = "0.1" := by decide +kernel
example : doubleText 1e21 = "1000000000000000000000" := by decide +kernel
example : singleText 0.1 = "0.1" := by decide +kernel

end BlockStage
