/-
  Trimming: a trimmed text is trimmed for good, and stays so behind a word that does not begin with
  a blank.
-/
import BlockStage.Text.Blank
import Mathlib.Data.List.DropRight

namespace BlockStage

theorem trimChars_eq (cs : List Char) :
    trimChars cs = (cs.dropWhile isBlank).rdropWhile isBlank := rfl

/-- What has no blank at either end is trimmed. -/
theorem trimChars_eq_self {cs : List Char} (first : ∀ c ∈ cs.head?, isBlank c = false)
    (last : cs.rdropWhile isBlank = cs) : trimChars cs = cs := by
  have front : cs.dropWhile isBlank = cs := by
    cases cs with
    | nil => rfl
    | cons c rest => exact List.dropWhile_cons_of_neg (by simp [first c rfl])
  rw [trimChars_eq, front, last]

theorem first_of_trimChars (cs : List Char) : ∀ c ∈ (trimChars cs).head?, isBlank c = false := by
  intro c hc
  rw [trimChars_eq] at hc
  obtain ⟨rest, whole⟩ := List.rdropWhile_prefix (p := isBlank) (l := cs.dropWhile isBlank)
  cases kept : (cs.dropWhile isBlank).rdropWhile isBlank with
  | nil =>
    rw [kept] at hc
    cases hc
  | cons d more =>
    rw [kept] at hc whole
    obtain rfl : d = c := Option.some.inj hc
    have left : (cs.dropWhile isBlank).head? = some d := by rw [← whole]; rfl
    have := List.head?_dropWhile_not isBlank cs
    rw [left] at this
    simpa using this

theorem trimChars_trimChars (cs : List Char) : trimChars (trimChars cs) = trimChars cs := by
  refine trimChars_eq_self (first_of_trimChars cs) ?_
  rw [trimChars_eq]
  exact List.rdropWhile_idempotent _ _

/-- A text is trimmed if there is a blank at neither end. -/
theorem trimChars_eq_self_iff {cs : List Char} : trimChars cs = cs ↔
    (∀ c ∈ cs.head?, isBlank c = false) ∧ ∀ c ∈ cs.getLast?, isBlank c = false := by
  constructor
  · intro trimmed
    refine ⟨trimmed ▸ first_of_trimChars cs, fun c hc => ?_⟩
    have last : cs.rdropWhile isBlank = cs := by
      rw [← trimmed, trimChars_eq]
      exact List.rdropWhile_idempotent _ _
    obtain ⟨nonempty, rfl⟩ := List.mem_getLast?_eq_getLast hc
    exact Bool.eq_false_iff.mpr (List.rdropWhile_eq_self_iff.mp last nonempty)
  · rintro ⟨first, last⟩
    refine trimChars_eq_self first (List.rdropWhile_eq_self_iff.mpr fun nonempty => ?_)
    rw [last _ (List.getLast_mem_getLast? nonempty)]
    exact Bool.false_ne_true

/-- Behind a word that does not begin with a blank, what is trimmed and not empty is still trimmed. -/
theorem trimChars_append {word cs : List Char} (first : ∀ c ∈ word.head?, isBlank c = false)
    (some : word ≠ []) (trimmed : trimChars cs = cs) (nonempty : cs ≠ []) :
    trimChars (word ++ cs) = word ++ cs := by
  have last := (trimChars_eq_self_iff.mp trimmed).2
  refine trimChars_eq_self_iff.mpr ⟨?_, ?_⟩
  · rw [List.head?_append_of_ne_nil _ some]
    exact first
  · rw [List.getLast?_append_of_ne_nil _ nonempty]
    exact last

/-- Of texts as of lists of characters. -/
theorem trimText_eq_self_iff {s : String} : trimText s = s ↔ trimChars s.toList = s.toList := by
  rw [← String.toList_inj, trimText, String.toList_ofList]

/-- A trimmed text is trimmed for good. -/
theorem trimText_trimText (s : String) : trimText (trimText s) = trimText s := by
  rw [trimText, trimText, String.toList_ofList, trimChars_trimChars]

end BlockStage
