/-
  Sounds and their playbacks.

  A sound may know its length and may be trimmed at both ends; the trimmed part lies within the
  sound.  A negative length has no trimmed part and is a fault.

  The player keeps books only: which sounds were triggered, which playbacks the host has still to
  begin, and which are on.  Handles are never used twice.
-/
import BlockStage.Fault
import BlockStage.Json.Decode
import BlockStage.Table

namespace BlockStage

/-- A sound of a scene. -/
structure Sound where
  id : String
  name : String
  source : String
  duration : Option Float
  trimStart : Option Float
  trimEnd : Option Float

namespace Sound

/-- `x` brought between two bounds, which must be in order. -/
def clamp? (lo hi x : Float) : Option Float :=
  if lo ≤ hi then some (if x < lo then lo else if hi < x then hi else x) else none

/-- The length of the trimmed sound, if the length is known. -/
def trimmedLength (s : Sound) : Except Fault (Option Float) :=
  match s.duration with
  | none => .ok none
  | some duration =>
    match clamp? 0 duration (s.trimStart.getD 0) with
    | none => .error .negativeSoundLength
    | some first =>
      match clamp? first duration (s.trimEnd.getD duration) with
      | none => .error .negativeSoundLength
      | some last => .ok (some (last - first))

/-- The fields of a sound as data. -/
def fieldNames : List String := ["id", "name", "source", "duration", "trim_start", "trim_end"]

/-- Reads a sound. -/
def decode : Decoder Sound := fun room j => do
  let fs ← Fields.open? fieldNames room j
  some
    { id := ← fs.required "id" Decoder.text
      name := ← fs.withDefault "name" Decoder.text ""
      source := ← fs.withDefault "source" Decoder.text ""
      duration := ← fs.optional "duration" Decoder.double
      trimStart := ← fs.optional "trim_start" Decoder.double
      trimEnd := ← fs.optional "trim_end" Decoder.double }

/-- The sound as data; what is unknown is left out. -/
def toJson (s : Sound) : Json :=
  .record
    ([("id", .str s.id), ("name", .str s.name), ("source", .str s.source)]
      ++ Json.optional "duration" Json.finite s.duration
      ++ Json.optional "trim_start" Json.finite s.trimStart
      ++ Json.optional "trim_end" Json.finite s.trimEnd)

end Sound

/-! ## The player -/

/-- What the host is asked to play. -/
structure PlaybackRequest where
  handle : Nat
  entity : String
  sound : String
  source : String
  start : Float
  stop : Option Float

/-- Playbacks that are on, with the time they end if it is known, and the books about the rest. -/
structure Player where
  enabled : Bool
  capacity : Nat
  triggers : List String
  requests : List PlaybackRequest
  active : Table Nat (Option Float)
  nextHandle : Nat

namespace Player

/-- A silent player that remembers so many triggers, at least one. -/
def new (capacity : Nat) : Player := ⟨true, max capacity 1, [], [], .empty, 1⟩

/-- Remembers a trigger, forgetting the oldest when full. -/
def remember (p : Player) (t : String) : Player :=
  let kept := if p.triggers.length = p.capacity then p.triggers.drop 1 else p.triggers
  { p with triggers := kept ++ [t] }

/-- The next handle, and a player that will not give it out again. -/
def takeHandle (p : Player) : Nat × Player :=
  (p.nextHandle, { p with nextHandle := p.nextHandle + 1 })

/-- Begins a playback under a handle that was taken for it. -/
def begin (p : Player) (handle : Nat) (entity : String) (sound : Sound) (endsAt : Option Float) :
    Player :=
  let p := p.remember ("play:" ++ entity ++ ":" ++ sound.id)
  let p :=
    if p.enabled then
      { p with
        requests := p.requests
          ++ [⟨handle, entity, sound.id, sound.source, sound.trimStart.getD 0, sound.trimEnd⟩] }
    else p
  { p with active := p.active.insert handle endsAt }

/-- Plays a sound: its handle, and when it ends.  The handle is used up even when the sound's length
    is at fault. -/
def play (p : Player) (entity : String) (sound : Sound) (now : Float) :
    Except Fault (Nat × Option Float) × Player :=
  let (handle, p) := p.takeHandle
  match sound.trimmedLength with
  | .error fault => (.error fault, p)
  | .ok length =>
    let endsAt := length.map fun d => now + d
    (.ok (handle, endsAt), p.begin handle entity sound endsAt)

/-- Ends a playback; answers whether it was on. -/
def complete (p : Player) (handle : Nat) : Bool × Player :=
  (p.active.contains handle, { p with active := p.active.erase handle })

/-- Is the playback on? -/
def isPlaying (p : Player) (handle : Nat) : Bool := p.active.contains handle

/-- The number of playbacks that are on. -/
def activeCount (p : Player) : Nat := p.active.entries.length

/-- Is the end still to come, or unknown? -/
def stillOn (now : Float) : Option Float → Bool
  | some stop => stop > now
  | none => true

/-- Ends the playbacks whose known end has come. -/
def prune (p : Player) (now : Float) : Player :=
  { p with active := ⟨p.active.entries.filter fun e => stillOn now e.2⟩ }

/-- Ends all playbacks; answers their handles, which are in order since they were given out so. -/
def stopAll (p : Player) : List Nat × Player :=
  let p := p.remember "stop_all"
  (p.active.keys, { p with active := .empty })

/-- Hands over the requests. -/
def takeRequests (p : Player) : List PlaybackRequest × Player :=
  (p.requests, { p with requests := [] })

/-- Forgets triggers, requests and playbacks, but no handle. -/
def clear (p : Player) : Player := { p with triggers := [], requests := [], active := .empty }

end Player

end BlockStage
