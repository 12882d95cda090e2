/-
  Reading JSON text, strictly: no trailing text, no byte-order mark, no leading zeros, no control
  characters in strings, no comments, no trailing commas.

  The crux is how a number becomes a value.  Its digits are gathered into a significand as long as
  that stays below `2 ^ 64`; the digits after are only counted.  The significand is then multiplied
  or divided once by a power of ten, in floating arithmetic.  Up to fifteen digits and small
  exponents this is the nearest number; beyond, it may be a neighbour.

  Recursion is on a bound for the number of steps, twice the length of the text: each step of
  `value` consumes a character, and `items` and `members` take one step more per element.
-/
import BlockStage.Json.Basic

namespace BlockStage

namespace JsonReader

/-- The four blanks between tokens. -/
def skipBlanks (cs : List Char) : List Char :=
  cs.dropWhile fun c => c == ' ' || c == '\n' || c == '\t' || c == '\r'

/-! ## Numbers -/

/-- The largest significand. -/
def significandLimit : Nat := Nat.pow 2 64 - 1

/-- The digits of a number so far: significand, power of ten, and whether all digits fitted. -/
structure Digits where
  significand : Nat
  exponent : Int
  exact : Bool

/-- Takes one more digit before the point. -/
def Digits.whole (d : Digits) (c : Char) : Digits :=
  let next := 10 * d.significand + (c.toNat - '0'.toNat)
  if d.exact && decide (next ≤ significandLimit) then { d with significand := next }
  else { d with exponent := d.exponent + 1, exact := false }

/-- Takes the digits after the point, up to the first that does not fit. -/
def Digits.fraction (d : Digits) : List Char → Digits
  | [] => d
  | c :: rest =>
    let next := 10 * d.significand + (c.toNat - '0'.toNat)
    if next ≤ significandLimit then
      Digits.fraction { d with significand := next, exponent := d.exponent - 1 } rest
    else d

/-- The power of ten `10 ^ n` for `n ≤ 308`, correctly rounded. -/
def powerOfTen (n : Nat) : Float := Float.ofScientific 1 false n

/-- `significand · 10 ^ exponent` by one multiplication or division, or nothing when infinite.
    Powers below the table take a division by its last entry first. -/
def scale (significand : Nat) (exponent : Int) : Option Float :=
  let x := doubleOfInt significand
  if 0 ≤ exponent then
    if significand = 0 then some x
    else if 308 < exponent then none
    else
      let y := x * powerOfTen exponent.toNat
      if y == 1.0 / 0.0 then none else some y
  else
    let rec down : Nat → Float → Nat → Float
      | 0, x, _ => x
      | fuel + 1, x, n =>
        if n ≤ 308 then x / powerOfTen n
        else if x == 0 then x
        else down fuel (x / powerOfTen 308) (n - 308)
    some (down 8 x (-exponent).toNat)

/-- An exponent part: sign, digits, and what follows. -/
def exponent? (cs : List Char) : Option (Int × List Char) :=
  let (negative, rest) :=
    match cs with
    | '-' :: r => (true, r)
    | '+' :: r => (false, r)
    | r => (false, r)
  let digits := rest.takeWhile Char.isDigit
  if digits.isEmpty then none
  else
    let n : Nat := digits.foldl (fun n c => 10 * n + (c.toNat - '0'.toNat)) 0
    some (if negative then -(n : Int) else n, rest.dropWhile Char.isDigit)

/-- The value of a number with a point or an exponent, or with too many digits. -/
def realValue (negative : Bool) (significand : Nat) (exponent : Int) : JsonNumber :=
  match scale significand exponent with
  | some x => .real (if negative then -x else x)
  | none => .tooLarge

/-- The value of a number of whole digits only.  Minus zero is no whole number. -/
def wholeValue (negative : Bool) (d : Digits) : JsonNumber :=
  if !d.exact then realValue negative d.significand d.exponent
  else if !negative then .integer d.significand
  else if d.significand = 0 || Nat.pow 2 63 < d.significand then
    .real (-(doubleOfInt d.significand))
  else .integer (-(d.significand : Int))

/-- A number without its sign. -/
def unsigned? (negative : Bool) (cs : List Char) : Option (JsonNumber × List Char) :=
  let whole := cs.takeWhile Char.isDigit
  let rest := cs.dropWhile Char.isDigit
  if whole.isEmpty || (whole.head? == some '0' && whole.length != 1) then none
  else
    let d := whole.foldl Digits.whole ⟨0, 0, true⟩
    let afterFraction : Option (Digits × Bool × List Char) :=
      match rest with
      | '.' :: r =>
        let frac := r.takeWhile Char.isDigit
        if frac.isEmpty then none else some (d.fraction frac, true, r.dropWhile Char.isDigit)
      | r => some (d, false, r)
    match afterFraction with
    | none => none
    | some (d, pointed, r) =>
      let marked :=
        match r with
        | 'e' :: r => some r
        | 'E' :: r => some r
        | _ => none
      match marked with
      | some r =>
        match exponent? r with
        | none => none
        | some (e, r) => some (realValue negative d.significand (d.exponent + e), r)
      | none =>
        if pointed then some (realValue negative d.significand d.exponent, r)
        else some (wholeValue negative d, r)

/-- A number. -/
def number? (cs : List Char) : Option (JsonNumber × List Char) :=
  match cs with
  | '-' :: r => unsigned? true r
  | r => unsigned? false r

/-! ## Strings -/

/-- The value of one hexadecimal digit. -/
def hexDigit? (c : Char) : Option Nat :=
  if '0' ≤ c && c ≤ '9' then some (c.toNat - '0'.toNat)
  else if 'a' ≤ c && c ≤ 'f' then some (c.toNat - 'a'.toNat + 10)
  else if 'A' ≤ c && c ≤ 'F' then some (c.toNat - 'A'.toNat + 10)
  else none

/-- Four hexadecimal digits. -/
def hex4? : List Char → Option (Nat × List Char)
  | a :: b :: c :: d :: r => do
    let a ← hexDigit? a
    let b ← hexDigit? b
    let c ← hexDigit? c
    let d ← hexDigit? d
    some (((a * 16 + b) * 16 + c) * 16 + d, r)
  | _ => none

/-- One unit of a string: a character, or a half of a pair of units that escapes spell. -/
inductive StringUnit where
  | char (c : Char)
  | half (n : Nat)

/-- The units of a string up to its closing quote. -/
def units? : Nat → List Char → Option (List StringUnit × List Char)
  | 0, _ => none
  | fuel + 1, cs =>
    let more := fun (u : StringUnit) (r : List Char) =>
      (units? fuel r).map fun p => (u :: p.1, p.2)
    match cs with
    | [] => none
    | '"' :: r => some ([], r)
    | '\\' :: '"' :: r => more (.char '"') r
    | '\\' :: '\\' :: r => more (.char '\\') r
    | '\\' :: '/' :: r => more (.char '/') r
    | '\\' :: 'b' :: r => more (.char '\x08') r
    | '\\' :: 'f' :: r => more (.char '\x0c') r
    | '\\' :: 'n' :: r => more (.char '\n') r
    | '\\' :: 'r' :: r => more (.char '\r') r
    | '\\' :: 't' :: r => more (.char '\t') r
    | '\\' :: 'u' :: r =>
      match hex4? r with
      | none => none
      | some (n, r) =>
        more (if 0xD800 ≤ n && n ≤ 0xDFFF then .half n else .char (Char.ofNat n)) r
    | '\\' :: _ => none
    | c :: r => if c.toNat < 0x20 then none else more (.char c) r

/-- Joins the halves of pairs; a half on its own leaves no text. -/
def joinUnits : List StringUnit → Option (List Char)
  | [] => some []
  | .char c :: r => (joinUnits r).map (c :: ·)
  | .half a :: .half b :: r =>
    if a < 0xDC00 && 0xDC00 ≤ b then
      (joinUnits r).map (Char.ofNat (0x10000 + (a - 0xD800) * 0x400 + (b - 0xDC00)) :: ·)
    else none
  | .half _ :: _ => none

/-- A string after its opening quote. -/
def string? (cs : List Char) : Option (Option String × List Char) :=
  (units? (cs.length + 1) cs).map fun p => ((joinUnits p.1).map String.ofList, p.2)

/-! ## Values -/

/-- Expects the rest of a word. -/
def word? (w : List Char) (cs : List Char) : Option (List Char) :=
  if w.isPrefixOf cs then some (cs.drop w.length) else none

mutual

/-- One value, and what follows it. -/
def value? : Nat → List Char → Option (Json × List Char)
  | 0, _ => none
  | fuel + 1, cs =>
    match skipBlanks cs with
    | '{' :: r =>
      match skipBlanks r with
      | '}' :: r => some (.object [], r)
      | r => (members? fuel r).map fun p => (.object p.1, p.2)
    | '[' :: r =>
      match skipBlanks r with
      | ']' :: r => some (.array [], r)
      | r => (items? fuel r).map fun p => (.array p.1, p.2)
    | '"' :: r => (string? r).map fun p => (.text p.1, p.2)
    | 't' :: r => (word? "rue".toList r).map fun r => (.bool true, r)
    | 'f' :: r => (word? "alse".toList r).map fun r => (.bool false, r)
    | 'n' :: r => (word? "ull".toList r).map fun r => (.null, r)
    | r => (number? r).map fun p => (.number p.1, p.2)

/-- The elements of an array and its closing bracket. -/
def items? : Nat → List Char → Option (List Json × List Char)
  | 0, _ => none
  | fuel + 1, cs =>
    match value? fuel cs with
    | none => none
    | some (v, r) =>
      match skipBlanks r with
      | ',' :: r => (items? fuel r).map fun p => (v :: p.1, p.2)
      | ']' :: r => some ([v], r)
      | _ => none

/-- The members of an object and its closing brace. -/
def members? : Nat → List Char → Option (List (Option String × Json) × List Char)
  | 0, _ => none
  | fuel + 1, cs =>
    match skipBlanks cs with
    | '"' :: r =>
      match string? r with
      | none => none
      | some (key, r) =>
        match skipBlanks r with
        | ':' :: r =>
          match value? fuel r with
          | none => none
          | some (v, r) =>
            match skipBlanks r with
            | ',' :: r => (members? fuel r).map fun p => ((key, v) :: p.1, p.2)
            | '}' :: r => some ([(key, v)], r)
            | _ => none
        | _ => none
    | _ => none

end

end JsonReader

/-- Reads a whole text as one JSON value. -/
def Json.parse? (text : String) : Option Json :=
  let cs := text.toList
  match JsonReader.value? (2 * cs.length + 2) cs with
  | some (v, r) => if (JsonReader.skipBlanks r).isEmpty then some v else none
  | none => none

end BlockStage
