/-
  What a session reports to its host.

  Events about two entities name them in order, so the same pair always reads the same.
-/

namespace BlockStage

/-- Something that happened. -/
inductive Event where
  | registered (id : String)
  | deleted (id : String)
  | cloneSpawned (id prototype : String)
  | cloneRejected (prototype : String) (liveClones : Nat)
  | touchingStarted (a b : String)
  | groundContact (id : String) (grounded : Bool)
  | bodyContact (a b : String) (started : Bool)
  | messageDelivered (message : String) (handlers : Nat)
  | sceneSwitchRequested (scene : String)
  | stopped
deriving Repr, DecidableEq

namespace Event

/-- Two names in order. -/
def sortedPair (a b : String) : String × String := if a ≤ b then (a, b) else (b, a)

/-- Two entities began to touch. -/
def touching (a b : String) : Event :=
  let p := sortedPair a b
  .touchingStarted p.1 p.2

/-- Two bodies began or ceased to be in contact. -/
def contact (a b : String) (started : Bool) : Event :=
  let p := sortedPair a b
  .bodyContact p.1 p.2 started

/-- A truth value in a line. -/
def flag (b : Bool) : String := if b then "true" else "false"

/-- The line of an event. -/
def line : Event → String
  | .registered id => "EntityRegistered id=" ++ id
  | .deleted id => "EntityDeleted id=" ++ id
  | .cloneSpawned id prototype => "CloneSpawned id=" ++ id ++ " original=" ++ prototype
  | .cloneRejected prototype n =>
    "CloneRejected original=" ++ prototype ++ " live_clones=" ++ toString n
  | .touchingStarted a b => "TouchingStarted a=" ++ a ++ " b=" ++ b
  | .groundContact id on => "GroundContact id=" ++ id ++ " grounded=" ++ flag on
  | .bodyContact a b on => "BodyContact a=" ++ a ++ " b=" ++ b ++ " started=" ++ flag on
  | .messageDelivered m n => "MessageDelivered message=" ++ m ++ " handlers=" ++ toString n
  | .sceneSwitchRequested scene => "SceneSwitchRequested scene=" ++ scene
  | .stopped => "Stopped"

end Event

end BlockStage
