/-
  Lower case for all of Unicode.

  Every character has its simple lower-case form but two.  Capital I with a dot above becomes an i
  and a combining dot.  Capital sigma becomes the final form at the end of a word: when the nearest
  character before it that is not case-ignorable is cased, and the nearest after it is not.
-/
import BlockStage.Text.CaseData

namespace BlockStage

/-- The simple lower-case form of a character. -/
def lowerChar (c : Char) : Char :=
  if c.toNat < 128 then c.toLower
  else
    match CaseData.lowerRuns.find? fun r =>
        r.first ≤ c.toNat && c.toNat ≤ r.last && (c.toNat - r.first) % r.step == 0 with
    | some r => Char.ofNat ((c.toNat : Int) + r.shift).toNat
    | none => c

/-- Is the code point in one of the ranges? -/
def inRanges (ranges : List (Nat × Nat)) (c : Char) : Bool :=
  ranges.any fun r => r.1 ≤ c.toNat && c.toNat ≤ r.2

/-- Is the first character that is not case-ignorable a cased one? -/
def startsCased (cs : List Char) : Bool :=
  match cs.dropWhile (inRanges CaseData.ignorableRanges) with
  | c :: _ => inRanges CaseData.casedRanges c
  | [] => false

/-- Lower case, given the characters already passed in reverse. -/
def lowerFrom (before : List Char) : List Char → List Char
  | [] => []
  | c :: rest =>
    let here :=
      if c = 'İ' then ['i', '\u0307']
      else if c = 'Σ' then
        [if startsCased before && !startsCased rest then 'ς' else 'σ']
      else [lowerChar c]
    here ++ lowerFrom (c :: before) rest

/-- The text in lower case. -/
def lowercase (s : String) : String := String.ofList (lowerFrom [] s.toList)

example : lowercase "ΟΔΟΣ, Σ" = "οδος, σ" := by decide +kernel

end BlockStage
