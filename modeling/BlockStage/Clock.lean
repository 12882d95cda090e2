/-
  Simulated time.

  The clock is moved by the game loop alone.  A frame time in seconds is first rounded to whole
  nanoseconds, a half going to the even one; the clock adds the rounded time.
-/
import BlockStage.Fault
import BlockStage.Number.Rounding

namespace BlockStage

/-- A span of time in whole nanoseconds. -/
structure Span where
  nanoseconds : Nat
deriving Repr, DecidableEq

namespace Span

/-- A span of whole milliseconds. -/
def ofMilliseconds (n : Nat) : Span := ⟨n * 1000000⟩

/-- The span nearest to a number of seconds.  Negative numbers, numbers from `2 ^ 64` on and
    not-a-number are no spans. -/
def ofSeconds (x : Float32) : Except Fault Span :=
  match exactOfSingle x with
  | .finite negative m e =>
    if negative && m != 0 then .error .unrepresentableTime
    else if Nat.pow 2 64 * Nat.pow 2 (-e).toNat ≤ m * Nat.pow 2 e.toNat then
      .error .unrepresentableTime
    else .ok ⟨Format.roundHalfEven (m * 1000000000 * Nat.pow 2 e.toNat) (Nat.pow 2 (-e).toNat)⟩
  | _ => .error .unrepresentableTime

/-- The seconds of a span: whole seconds plus the fraction, each rounded. -/
def toSeconds (s : Span) : Float :=
  doubleOfInt (s.nanoseconds / 1000000000 : Nat)
    + doubleOfInt (s.nanoseconds % 1000000000 : Nat) / 1e9

end Span

/-- Elapsed seconds, the last frame's seconds, the number of frames, and where the timer began. -/
structure Clock where
  elapsed : Float
  delta : Float
  frame : Nat
  timerOrigin : Float

namespace Clock

/-- Time zero. -/
def start : Clock := ⟨0, 0, 0, 0⟩

/-- One frame later. -/
def tick (c : Clock) (s : Span) : Clock :=
  let delta := s.toSeconds
  { c with delta := delta, elapsed := c.elapsed + delta, frame := c.frame + 1 }

/-- Seconds since the timer was last reset. -/
def timer (c : Clock) : Float := c.elapsed - c.timerOrigin

/-- Resets the timer. -/
def resetTimer (c : Clock) : Clock := { c with timerOrigin := c.elapsed }

end Clock

end BlockStage
