/-
  Reproducible random numbers.

  The generator is the ChaCha stream cipher with twelve rounds: its state is a key and the number
  of 32-bit words drawn so far, and word `i` of the stream is a function of both.  A seed of 64 bits
  is spread over the key by a permuted congruential generator.

  Draws from a range of whole numbers multiply a 64-bit draw by the size of the range and keep the
  high half, rejecting draws that would favour some results.  Each draw is rejected with a chance
  below one half, so a bound on the number of draws is never met in practice; at the bound the last
  draw is taken, which is in the range as well.
-/
import BlockStage.Number.Rounding

namespace BlockStage

/-- The state of the generator. -/
structure Generator where
  key : List UInt32
  position : Nat
deriving Repr, DecidableEq

namespace Generator

/-! ## Seeding -/

/-- The bits of `x` turned to the right. -/
def turnRight (x : UInt32) (n : UInt32) : UInt32 :=
  let k := n % 32
  if k = 0 then x else (x >>> k) ||| (x <<< (32 - k))

/-- The bits of `x` turned to the left. -/
def turnLeft (x : UInt32) (n : UInt32) : UInt32 := turnRight x (32 - n)

/-- So many words of the key from the state of the spreading generator. -/
def keyWords : Nat → UInt64 → List UInt32
  | 0, _ => []
  | n + 1, s =>
    let s := s * 6364136223846793005 + 11634580027462260723
    let x := (((s >>> 18) ^^^ s) >>> 27).toUInt32
    turnRight x (s >>> 59).toUInt32 :: keyWords n s

/-- The generator of a seed. -/
def ofSeed (seed : Nat) : Generator := ⟨keyWords 8 (UInt64.ofNat seed), 0⟩

/-! ## The stream -/

/-- One quarter round on the words at four places. -/
def quarter (s : Array UInt32) (a b c d : Nat) : Array UInt32 :=
  let s := s.set! a (s.getD a 0 + s.getD b 0)
  let s := s.set! d (turnLeft (s.getD d 0 ^^^ s.getD a 0) 16)
  let s := s.set! c (s.getD c 0 + s.getD d 0)
  let s := s.set! b (turnLeft (s.getD b 0 ^^^ s.getD c 0) 12)
  let s := s.set! a (s.getD a 0 + s.getD b 0)
  let s := s.set! d (turnLeft (s.getD d 0 ^^^ s.getD a 0) 8)
  let s := s.set! c (s.getD c 0 + s.getD d 0)
  s.set! b (turnLeft (s.getD b 0 ^^^ s.getD c 0) 7)

/-- A round over the columns and a round over the diagonals. -/
def doubleRound (s : Array UInt32) : Array UInt32 :=
  let s := quarter s 0 4 8 12
  let s := quarter s 1 5 9 13
  let s := quarter s 2 6 10 14
  let s := quarter s 3 7 11 15
  let s := quarter s 0 5 10 15
  let s := quarter s 1 6 11 12
  let s := quarter s 2 7 8 13
  quarter s 3 4 9 14

/-- The words of a block before the rounds. -/
def initial (key : List UInt32) (block : Nat) : Array UInt32 :=
  ([0x61707865, 0x3320646e, 0x79622d32, 0x6b206574] ++ key
    ++ [UInt32.ofNat block, UInt32.ofNat (block / Nat.pow 2 32), 0, 0]).toArray

/-- The sixteen words of a block. -/
def block (key : List UInt32) (n : Nat) : Array UInt32 :=
  let start := initial key n
  let mixed := Nat.repeat doubleRound 6 start
  mixed.zipWith (· + ·) start

/-- The next 64-bit draw, the low word first. -/
def next (g : Generator) : UInt64 × Generator :=
  let word := fun i => (block g.key (i / 16)).getD (i % 16) 0
  let low := word g.position
  let high := word (g.position + 1)
  (low.toUInt64 ||| (high.toUInt64 <<< 32), { g with position := g.position + 2 })

/-! ## Draws -/

/-- The bound on rejected draws. -/
def patience : Nat := 1000

/-- Draws below `range`, where products with a low half above `zone` are rejected. -/
def below (range zone : Nat) : Nat → Generator → Nat × Generator
  | 0, g =>
    let (v, g) := g.next
    (v.toNat * range / Nat.pow 2 64, g)
  | fuel + 1, g =>
    let (v, g) := g.next
    let product := v.toNat * range
    if product % Nat.pow 2 64 ≤ zone then (product / Nat.pow 2 64, g) else below range zone fuel g

/-- A whole number between two 64-bit bounds, both included. -/
def between (low high : Int) (g : Generator) : Int × Generator :=
  let range := ((high - low + 1) % Nat.pow 2 64).toNat
  if range = 0 then
    let (v, g) := g.next
    (v.toInt64.toInt, g)
  else
    let zone := range * Nat.pow 2 (63 - Nat.log2 range) - 1
    let (n, g) := below range zone patience g
    (low + n, g)

/-- A number in `[0, 1)` with 53 random bits. -/
def fraction (g : Generator) : Float × Generator :=
  let (v, g) := g.next
  (doubleOf (.finite false (v.toNat / Nat.pow 2 11) (-53)), g)

/-- A number in `[low, high)`, by 52 random bits. -/
def within (low high : Float) : Nat → Generator → Float × Generator
  | 0, g => (low, g)
  | fuel + 1, g =>
    let (v, g) := g.next
    let unit := doubleOf (.finite false (v.toNat / Nat.pow 2 12) (-52))
    let x := unit * (high - low) + low
    if x < high then (x, g) else within low high fuel g

end Generator

/-- A number between two bounds given in either order; a whole number when asked for.  Bounds that
    are not finite draw nothing. -/
def drawBetween (a b : Float) (whole : Bool) (g : Generator) : Float × Generator :=
  let finite := fun x => match exactOf x with
    | .finite _ _ _ => true
    | _ => false
  if !finite a || !finite b then (0, g)
  else
    let (low, high) := if a ≤ b then (a, b) else (b, a)
    if whole then
      let first := toInt64 (ceilingOf low)
      let last := toInt64 (floorOf high)
      if last ≤ first then (doubleOfInt first, g)
      else
        let (i, g) := g.between first last
        (doubleOfInt i, g)
    else if high - low ≤ Float.ofBits 0x3CB0000000000000 then (low, g)
    else if finite (high - low) then g.within low high Generator.patience
    else
      let (t, g) := g.fraction
      (low * (1 - t) + high * t, g)

end BlockStage
