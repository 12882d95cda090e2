/-
  The options of the command line.

  Every option is a flag and a value.  Of a flag given twice the last value counts.  An argument
  that is no flag, a flag without a value, an unknown flag and a bad value are errors, the first in
  the order of the arguments.
-/
import BlockStage.Config
import BlockStage.Decimal.Reader
import BlockStage.Key

namespace BlockStage

/-- What the command line asks for. -/
structure Options where
  scene : Option String
  config : Option String
  frames : Option Nat
  overrides : Overrides

/-- What can be wrong with a command line. -/
inductive OptionsError where
  | unexpected (argument : String)
  | missingValue (flag : String)
  | unknown (flag : String)
  | badFrames (value : String)
  | badCloneLimit (value : String)
  | badSeed (value : String)
  | badDimension (name value : String)
  | notPositive (name value : String)
deriving Repr, DecidableEq

/-- The message of an error. -/
def OptionsError.message : OptionsError → String
  | .unexpected a => "Unexpected argument '" ++ a ++ "'. Flags take the form --name <value>."
  | .missingValue f => "Expected a value after '" ++ f ++ "'"
  | .unknown f =>
    "Unknown flag '" ++ f ++ "'. Supported flags: --scene, --config, --frames, --width, --height, "
      ++ "--clone-limit, --seed."
  | .badFrames v => "Invalid frame count '" ++ v ++ "'"
  | .badCloneLimit v => "Invalid clone limit '" ++ v ++ "'"
  | .badSeed v => "Invalid seed '" ++ v ++ "'"
  | .badDimension n v => "Invalid " ++ n ++ " '" ++ v ++ "'"
  | .notPositive n v =>
    "Invalid " ++ n ++ " '" ++ v ++ "'. Canvas dimensions must be positive."

namespace Options

/-- No options. -/
def none : Options := ⟨.none, .none, .none, .none⟩

/-- Reads a side of the canvas. -/
def dimension (name value : String) : Except OptionsError Float32 :=
  match parseSingle? value with
  | .none => .error (.badDimension name value)
  | some x => if Single.finite x && 0 < x then .ok x else .error (.notPositive name value)

/-- Reads a natural number. -/
def natural (value : String) (error : OptionsError) : Except OptionsError Nat :=
  match parseNat64? value with
  | .none => .error error
  | some n => .ok n

/-- Takes one flag with its value. -/
def set (o : Options) (flag value : String) : Except OptionsError Options :=
  match flag with
  | "--scene" => .ok { o with scene := some value }
  | "--config" => .ok { o with config := some value }
  | "--frames" => do
    let n ← natural value (.badFrames value)
    .ok { o with frames := some n }
  | "--width" => do
    let x ← dimension "width" value
    .ok { o with overrides := { o.overrides with width := some x } }
  | "--height" => do
    let x ← dimension "height" value
    .ok { o with overrides := { o.overrides with height := some x } }
  | "--clone-limit" => do
    let n ← natural value (.badCloneLimit value)
    .ok { o with overrides := { o.overrides with cloneLimit := some n } }
  | "--seed" => do
    let n ← natural value (.badSeed value)
    .ok { o with overrides := { o.overrides with seed := some n } }
  | flag => .error (.unknown flag)

/-- Takes the arguments in order. -/
def ofArguments (o : Options) : List String → Except OptionsError Options
  | [] => .ok o
  | flag :: rest =>
    if (Key.after? "--".toList flag.toList).isNone then .error (.unexpected flag)
    else
      match rest with
      | [] => .error (.missingValue flag)
      | value :: rest =>
        match o.set flag value with
        | .ok o => o.ofArguments rest
        | .error e => .error e

/-- Reads a command line whose first word names the program. -/
def parse (words : List String) : Except OptionsError Options := none.ofArguments (words.drop 1)

end Options

end BlockStage
