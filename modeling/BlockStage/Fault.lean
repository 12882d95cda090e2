/-
  The ways in which running a session can break off.

  A fault is no answer of the program: it ends the call in which it arises and leaves the state as
  it was at that moment.  The first three are numbers that no clock, sound or handle can take; the
  last says that a call asked for more steps than its budget and nothing else about it.
-/

namespace BlockStage

/-- Why a call broke off. -/
inductive Fault where
  | negativeSoundLength
  | unrepresentableTime
  | missingEntity
  | budgetExhausted
deriving Repr, DecidableEq

end BlockStage
