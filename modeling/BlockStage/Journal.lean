/-
  The journal: a bounded record of what happened, for people to read.

  It holds at most its capacity, which is never less than one entry; a new entry drives out the
  oldest.  An entry's line is its time with three places in eight columns, its kind in six, and the
  message.
-/
import BlockStage.Decimal.Fixed

namespace BlockStage

/-- What an entry is about. -/
inductive EntryKind where
  | info | event | action | error | user
deriving Repr, DecidableEq

namespace EntryKind

/-- The word for a kind. -/
def label : EntryKind → String
  | .info => "info"
  | .event => "event"
  | .action => "action"
  | .error => "error"
  | .user => "user"

/-- The kinds by their words. -/
def words : List (String × EntryKind) :=
  [("info", .info), ("event", .event), ("action", .action), ("error", .error), ("user", .user)]

end EntryKind

/-- One entry. -/
structure JournalEntry where
  time : Float
  kind : EntryKind
  message : String

/-- The line of an entry. -/
def JournalEntry.line (e : JournalEntry) : String :=
  "[" ++ padLeft 8 (fixedText 3 e.time) ++ "] " ++ padRight 6 e.kind.label ++ " " ++ e.message

/-- Entries, oldest first, and how many fit. -/
structure Journal where
  entries : List JournalEntry
  capacity : Nat

namespace Journal

/-- The capacity when none is asked for. -/
def usualCapacity : Nat := 200

/-- An empty journal. -/
def new (capacity : Nat) : Journal := ⟨[], max capacity 1⟩

/-- Adds an entry. -/
def push (j : Journal) (time : Float) (kind : EntryKind) (message : String) : Journal :=
  let kept := if j.entries.length = j.capacity then j.entries.drop 1 else j.entries
  { j with entries := kept ++ [⟨time, kind, message⟩] }

/-- Forgets all entries. -/
def clear (j : Journal) : Journal := { j with entries := [] }

/-- The number of entries of a kind. -/
def count (j : Journal) (kind : EntryKind) : Nat :=
  (j.entries.filter fun e => e.kind == kind).length

/-- The lines of all entries. -/
def lines (j : Journal) : List String := j.entries.map JournalEntry.line

end Journal

end BlockStage
