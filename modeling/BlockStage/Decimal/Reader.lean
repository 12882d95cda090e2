/-
  Reading decimal text as the nearest binary number.

  The accepted form is: an optional sign; digits with an optional point, at least one digit in all;
  an optional exponent.  Or, in any letter case, a word for infinity or not-a-number.  The number
  read is `digits · 10 ^ place`, a ratio of naturals, rounded once.

  Exponents far outside the range are answered without computing the power: a number whose first
  digit stands above the 400th place is infinite, one below the −400th is zero.
-/
import BlockStage.Number.Binary

namespace BlockStage

/-- What decimal text says before any rounding. -/
inductive DecimalText where
  | nan
  | infinite (negative : Bool)
  | number (negative : Bool) (digits : Nat) (place : Int)
deriving Repr, DecidableEq

namespace DecimalText

/-- The value of a string of decimal digits. -/
def digitsValue (cs : List Char) : Nat :=
  cs.foldl (fun n c => 10 * n + (c.toNat - '0'.toNat)) 0

/-- An exponent's digits: at least one, an optional sign before them, and nothing after. -/
def exponent? (cs : List Char) : Option Int :=
  let (negative, rest) :=
    match cs with
    | '-' :: r => (true, r)
    | '+' :: r => (false, r)
    | r => (false, r)
  if rest.isEmpty || !rest.all Char.isDigit then none
  else
    let n : Int := digitsValue rest
    some (if negative then -n else n)

/-- The unsigned part of a number. -/
def unsigned? (negative : Bool) (cs : List Char) : Option DecimalText :=
  let whole := cs.takeWhile Char.isDigit
  let rest := cs.dropWhile Char.isDigit
  let (frac, rest) :=
    match rest with
    | '.' :: r => (r.takeWhile Char.isDigit, r.dropWhile Char.isDigit)
    | r => ([], r)
  let all := whole ++ frac
  if all.isEmpty then none
  else
    let answer := fun (e : Int) =>
      DecimalText.number negative (digitsValue all) (e - frac.length)
    match rest with
    | [] => some (answer 0)
    | c :: r => if c = 'e' || c = 'E' then (exponent? r).map answer else none

/-- Reads the whole text. -/
def parse? (cs : List Char) : Option DecimalText :=
  let (negative, rest) :=
    match cs with
    | '-' :: r => (true, r)
    | '+' :: r => (false, r)
    | r => (false, r)
  let word := rest.map Char.toLower
  if word = "inf".toList || word = "infinity".toList then some (.infinite negative)
  else if word = "nan".toList then some .nan
  else unsigned? negative rest

/-- The word of the nearest number of a format. -/
def encode (f : Format) : DecimalText → Nat
  | .nan => f.encodeExact .nan
  | .infinite negative => f.encodeExact (.infinite negative)
  | .number negative digits place =>
    let top := place + (Nat.toDigits 10 digits).length
    if digits = 0 || top < -400 then f.encode negative 0 0
    else if 400 < top then f.encodeExact (.infinite negative)
    else f.encodeRatio negative (digits * Nat.pow 10 place.toNat) (Nat.pow 10 (-place).toNat)

end DecimalText

/-- Reads an eight-byte number. -/
def parseDouble? (text : String) : Option Float :=
  (DecimalText.parse? text.toList).map fun d => Float.ofBits (UInt64.ofNat (d.encode .double))

/-- Reads a four-byte number, rounding once. -/
def parseSingle? (text : String) : Option Float32 :=
  (DecimalText.parse? text.toList).map fun d => Float32.ofBits (UInt32.ofNat (d.encode .single))

/-- Reads a natural below `2 ^ 64`: an optional plus sign, then digits only. -/
def parseNat64? (text : String) : Option Nat :=
  let digits :=
    match text.toList with
    | '+' :: r => r
    | r => r
  if digits.isEmpty || !digits.all Char.isDigit then none
  else
    let n := DecimalText.digitsValue digits
    if n < Nat.pow 2 64 then some n else none

example : DecimalText.parse? "-5.e1".toList = some (.number true 5 1) := by decide +kernel
example : DecimalText.parse? ".".toList = none := by decide +kernel
example : parseNat64? "007" = some 7 := by decide +kernel

end BlockStage
