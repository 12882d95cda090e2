/-
  Glides: straight moves spread over time.

  Progress grows with time from 0 to 1 and stays there; a glide without duration is over at once.
-/
import BlockStage.Geometry.Vec

namespace BlockStage

/-- A move in user space, from when on, and how long it takes. -/
structure Glide where
  origin : Vec Float32
  goal : Vec Float32
  start : Float
  duration : Float

namespace Glide

/-- A number brought into `[0, 1]`; not-a-number stays. -/
def unit (x : Float) : Float := if x < 0 then 0 else if 1 < x then 1 else x

/-- The part of the way that is done. -/
def progress (g : Glide) (now : Float) : Float32 :=
  if g.duration ≤ 0 then 1 else narrow (unit ((now - g.start) / g.duration))

/-- The point that is reached. -/
def position (g : Glide) (now : Float) : Vec Float32 := Vec.lerp g.origin g.goal (g.progress now)

end Glide

end BlockStage
