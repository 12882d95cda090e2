/-
  Decimal text with a fixed number of places, and padding to a width.

  The digits are those of the exact binary value, rounded once: a half goes to the even digit.
-/
import BlockStage.Number.Binary

namespace BlockStage

/-- The magnitude `m · 2 ^ e` in units of `10 ^ (-places)`, rounded with ties to even. -/
def scaledMagnitude (places m : Nat) (e : Int) : Nat :=
  Format.roundHalfEven (m * Nat.pow 10 places * Nat.pow 2 e.toNat) (Nat.pow 2 (-e).toNat)

/-- A whole number of units of `10 ^ (-places)` as text. -/
def placesText (places units : Nat) : String :=
  let text := Nat.toDigits 10 units
  let padded := List.replicate (places + 1 - text.length) '0' ++ text
  let split := padded.length - places
  if places = 0 then String.ofList padded
  else String.ofList (padded.take split ++ '.' :: padded.drop split)

/-- `x` with exactly `places` decimal places. -/
def fixedText (places : Nat) (x : Float) : String :=
  match exactOf x with
  | .nan => "NaN"
  | .infinite negative => if negative then "-inf" else "inf"
  | .finite negative m e =>
    (if negative then "-" else "") ++ placesText places (scaledMagnitude places m e)

/-- `text` moved to the right end of `width` columns. -/
def padLeft (width : Nat) (text : String) : String :=
  String.ofList (List.replicate (width - text.length) ' ') ++ text

/-- `text` at the left end of `width` columns. -/
def padRight (width : Nat) (text : String) : String :=
  text ++ String.ofList (List.replicate (width - text.length) ' ')

example : fixedText 3 0.0625 = "0.062" := by decide +kernel
example : fixedText 3 99999.9995 = "100000.000" := by decide +kernel
example : fixedText 1 (-0.04) = "-0.0" := by decide +kernel

end BlockStage
