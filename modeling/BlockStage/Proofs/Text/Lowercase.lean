/-
  Lower case: a text in lower case stays as it is, and its ends are no blanks where they were none.

  1. **Specification (`Settled`)** — a character that lower-casing leaves alone wherever it stands.
     A text of such characters is its own lower case (`lowercase_eq_self`).

  2. **The crux (`disjoint_lowerRuns`)** — the characters of a run, and those that they move to, stand
     in a row of equal steps (`CodeRow`).  Rows are compared all at once, as numbers with a bit for
     each code point: no run moves characters to where one takes them from, nor to a blank.  So one
     move is all there is (`settled_lowerChar`).

  3. **Results** — lower-casing twice is lower-casing once (`lowercase_lowercase`), and a trimmed
     text stays trimmed (`trimText_lowercase`).
-/
import BlockStage.Text.Lowercase
import BlockStage.Proofs.Trimming
import Mathlib

namespace BlockStage

/-! ## Rows of code points -/

/-- Code points in equal steps. -/
structure CodeRow where
  first : Nat
  step : Nat
  count : Nat

namespace CodeRow

/-- Does the code point stand in the row? -/
def Has (r : CodeRow) (n : Nat) : Prop := ∃ i < r.count, n = r.first + i * r.step

/-- A number with as many bits, each a step above the one before, the first at the bottom. -/
def comb (step : Nat) : Nat → Nat
  | 0 => 0
  | k + 1 => 1 ||| comb step k <<< step

/-- The row as a number with a bit for each code point. -/
def bits (r : CodeRow) : Nat := comb r.step r.count <<< r.first

/-- All the rows as one number. -/
def union (rows : List CodeRow) : Nat := rows.foldr (fun r m => r.bits ||| m) 0

theorem testBit_comb {step k n : Nat} :
    (comb step k).testBit n = true ↔ ∃ i < k, n = i * step := by
  induction k generalizing n with
  | zero =>
    rw [comb, Nat.zero_testBit]
    refine iff_of_false Bool.false_ne_true ?_
    rintro ⟨i, none, -⟩
    cases none
  | succ k ih =>
    rw [comb, Nat.testBit_lor, Bool.or_eq_true, Nat.testBit_one_eq_true_iff_self_eq_zero,
      Nat.testBit_shiftLeft, Bool.and_eq_true, decide_eq_true_eq, ih]
    constructor
    · rintro (rfl | ⟨above, i, small, whole⟩)
      · exact ⟨0, Nat.succ_pos k, (Nat.zero_mul step).symm⟩
      · exact ⟨i + 1, Nat.succ_lt_succ small, by rw [Nat.succ_mul]; omega⟩
    · rintro ⟨i, small, rfl⟩
      cases i with
      | zero => exact .inl (Nat.zero_mul step)
      | succ i =>
        rw [Nat.succ_mul]
        exact .inr ⟨Nat.le_add_left _ _, i, Nat.lt_of_succ_lt_succ small, Nat.add_sub_cancel _ _⟩

theorem testBit_bits {r : CodeRow} {n : Nat} : r.bits.testBit n = true ↔ r.Has n := by
  rw [bits, Nat.testBit_shiftLeft, Bool.and_eq_true, decide_eq_true_eq, testBit_comb]
  constructor
  · rintro ⟨above, i, small, whole⟩
    exact ⟨i, small, by omega⟩
  · rintro ⟨i, small, rfl⟩
    exact ⟨Nat.le_add_right _ _, i, small, Nat.add_sub_cancel_left _ _⟩

theorem testBit_union {rows : List CodeRow} {n : Nat} :
    (union rows).testBit n = true ↔ ∃ r ∈ rows, r.Has n := by
  induction rows with
  | nil =>
    rw [union, List.foldr_nil, Nat.zero_testBit]
    refine iff_of_false Bool.false_ne_true ?_
    rintro ⟨r, none, -⟩
    cases none
  | cons r rows ih =>
    rw [union, List.foldr_cons, ← union, Nat.testBit_lor, Bool.or_eq_true, testBit_bits, ih,
      List.exists_mem_cons_iff]

/-- What stands in none of the rows of another list. -/
theorem not_has_of_disjoint {rows others : List CodeRow} (apart : union rows &&& union others = 0)
    {r q : CodeRow} {n : Nat} (hr : r ∈ rows) (h : r.Has n) (hq : q ∈ others) : ¬q.Has n := by
  intro h'
  have both : (union rows &&& union others).testBit n = true := by
    rw [Nat.testBit_land, testBit_union.mpr ⟨r, hr, h⟩, testBit_union.mpr ⟨q, hq, h'⟩, Bool.and_self]
  rw [apart, Nat.zero_testBit] at both
  cases both

/-- A row of single steps is a stretch. -/
theorem has_stretch {first count n : Nat} :
    Has ⟨first, 1, count⟩ n ↔ first ≤ n ∧ n < first + count := by
  constructor
  · rintro ⟨i, small, rfl⟩
    dsimp only at small ⊢
    omega
  · rintro ⟨above, below⟩
    exact ⟨n - first, by dsimp only; omega, by dsimp only; omega⟩

end CodeRow

namespace LowerRun

/-- The characters that the run moves. -/
def upper (r : LowerRun) : CodeRow := ⟨r.first, r.step, (r.last - r.first) / r.step + 1⟩

/-- The characters that it moves them to. -/
def lower (r : LowerRun) : CodeRow :=
  ⟨(r.first + r.shift).toNat, r.step, (r.last - r.first) / r.step + 1⟩

/-- Where the run moves a code point. -/
def move (r : LowerRun) (n : Nat) : Nat := ((n : Int) + r.shift).toNat

variable {r : LowerRun} {n : Nat}

/-- The table is read by ends and steps. -/
theorem has_upper (first : r.first ≤ n) (last : n ≤ r.last)
    (whole : (n - r.first) % r.step = 0) : r.upper.Has n := by
  refine ⟨(n - r.first) / r.step, ?_, ?_⟩
  · exact Nat.lt_succ_of_le (Nat.div_le_div_right (Nat.sub_le_sub_right last _))
  · dsimp only [upper]
    rw [Nat.div_mul_cancel (Nat.dvd_of_mod_eq_zero whole)]
    omega

theorem has_move (up : 0 ≤ r.first + r.shift) (h : r.upper.Has n) : r.lower.Has (r.move n) := by
  obtain ⟨i, small, rfl⟩ := h
  refine ⟨i, small, ?_⟩
  dsimp only [upper, lower, move]
  omega

theorem bounds_of_has (ends : r.first ≤ r.last) (h : r.upper.Has n) :
    r.first ≤ n ∧ n ≤ r.last := by
  obtain ⟨i, small, rfl⟩ := h
  have steps : i * r.step ≤ r.last - r.first :=
    (Nat.mul_le_mul_right _ (Nat.le_of_lt_succ small)).trans (Nat.div_mul_le_self _ _)
  dsimp only [upper]
  omega

end LowerRun

/-- The blank characters. -/
def blankRows : List CodeRow :=
  [⟨0x9, 1, 5⟩, ⟨0x20, 1, 1⟩, ⟨0x85, 1, 1⟩, ⟨0xA0, 1, 1⟩, ⟨0x1680, 1, 1⟩, ⟨0x2000, 1, 11⟩,
    ⟨0x2028, 1, 2⟩, ⟨0x202F, 1, 1⟩, ⟨0x205F, 1, 1⟩, ⟨0x3000, 1, 1⟩]

theorem isBlank_iff (c : Char) : isBlank c = true ↔ ∃ r ∈ blankRows, r.Has c.toNat := by
  simp only [isBlank, blankRows, CodeRow.has_stretch, Bool.or_eq_true, Bool.and_eq_true,
    decide_eq_true_eq, beq_iff_eq, List.exists_mem_cons_iff, List.not_mem_nil, false_and,
    exists_false, or_false]
  omega

namespace CaseData

/-- Code points to which no character moves: those that are moved themselves, that of capital I with
    a dot above, and the blanks. -/
def unmovedTo : List CodeRow := ⟨0x130, 1, 1⟩ :: (blankRows ++ lowerRuns.map LowerRun.upper)

/-- **No run moves characters there.** -/
theorem disjoint_lowerRuns :
    CodeRow.union (lowerRuns.map LowerRun.lower) &&& CodeRow.union unmovedTo = 0 := by
  decide +kernel

/-- Runs lead to code points of characters. -/
theorem bounds_lowerRuns : ∀ r ∈ lowerRuns, r.first ≤ r.last ∧ 0 ≤ r.first + r.shift ∧
    (r.last + r.shift < 0xD800 ∨ 0xDFFF < r.first + r.shift ∧ r.last + r.shift < 0x110000) := by
  decide +kernel

end CaseData

open CaseData (lowerRuns unmovedTo)

section Moves

variable {r : LowerRun} {n : Nat}

theorem not_has_move (hr : r ∈ lowerRuns) (h : r.upper.Has n) {row : CodeRow}
    (there : row ∈ unmovedTo) : ¬row.Has (r.move n) :=
  CodeRow.not_has_of_disjoint CaseData.disjoint_lowerRuns (List.mem_map_of_mem hr)
    (r.has_move (CaseData.bounds_lowerRuns r hr).2.1 h) there

/-- What has been moved is moved by no run. -/
theorem not_upper_move (hr : r ∈ lowerRuns) (h : r.upper.Has n) {q : LowerRun}
    (hq : q ∈ lowerRuns) : ¬q.upper.Has (r.move n) :=
  not_has_move hr h (.tail _ (List.mem_append_right _ (List.mem_map_of_mem hq)))

theorem isValidChar_move (hr : r ∈ lowerRuns) (h : r.upper.Has n) : (r.move n).isValidChar := by
  obtain ⟨ends, up, valid⟩ := CaseData.bounds_lowerRuns r hr
  have between := r.bounds_of_has ends h
  rw [Nat.isValidChar, LowerRun.move]
  omega

end Moves

/-! ## Characters -/

/-- A character is left alone, or a run moves it. -/
theorem lowerChar_cases (c : Char) : lowerChar c = c ∨
    ∃ r ∈ lowerRuns, r.upper.Has c.toNat ∧ (lowerChar c).toNat = r.move c.toNat := by
  -- Where a run has the character and the new one is made from its place, that is the place.
  have moved : ∀ r ∈ lowerRuns, r.upper.Has c.toNat →
      lowerChar c = Char.ofNat (r.move c.toNat) → lowerChar c = c ∨
        ∃ r ∈ lowerRuns, r.upper.Has c.toNat ∧ (lowerChar c).toNat = r.move c.toNat := by
    intro r hr has made
    refine .inr ⟨r, hr, has, ?_⟩
    rw [made, Char.toNat_ofNat, if_pos (isValidChar_move hr has)]
  by_cases ascii : c.toNat < 128
  · have lower : lowerChar c = c.toLower := by rw [lowerChar, if_pos ascii]
    by_cases upper : c.isUpper
    · refine moved ⟨65, 90, 1, 32⟩ (.head _) ?_ ?_
      · simp only [Char.isUpper, ge_iff_le, decide_eq_true_eq] at upper
        exact LowerRun.has_upper upper.1 upper.2 (Nat.mod_one _)
      · rw [lower, Char.toLower_eq_of_isUpper upper]
        rfl
    · exact .inl (by rw [lower, Char.toLower_eq_of_not_isUpper upper])
  · cases found : lowerRuns.find? fun r =>
        r.first ≤ c.toNat && c.toNat ≤ r.last && (c.toNat - r.first) % r.step == 0 with
    | none => exact .inl (by rw [lowerChar, if_neg ascii, found])
    | some r =>
      have covered := List.find?_some found
      simp only [Bool.and_eq_true, decide_eq_true_eq, beq_iff_eq] at covered
      refine moved r (List.mem_of_find?_eq_some found)
        (r.has_upper covered.1.1 covered.1.2 covered.2) ?_
      rw [lowerChar, if_neg ascii, found]
      rfl

/-- A character that lower-casing leaves alone wherever it stands. -/
structure Settled (c : Char) : Prop where
  lower : lowerChar c = c
  dotless : c ≠ 'İ'
  noSigma : c ≠ 'Σ'

theorem lowerChar_sigma : lowerChar 'Σ' = 'σ' := by
  decide +kernel

theorem settled_of_lower {c : Char} (lower : lowerChar c = c) (dotless : c ≠ 'İ') : Settled c := by
  refine ⟨lower, dotless, ?_⟩
  rintro rfl
  rw [lowerChar_sigma] at lower
  revert lower
  decide

/-- **One move is all there is.** -/
theorem settled_lowerChar {c : Char} (dotless : c ≠ 'İ') : Settled (lowerChar c) := by
  rcases lowerChar_cases c with same | ⟨r, hr, has, moved⟩
  · rw [same]
    exact settled_of_lower same dotless
  · refine settled_of_lower ?_ fun dotted => ?_
    · rcases lowerChar_cases (lowerChar c) with same | ⟨q, hq, has', -⟩
      · exact same
      · rw [moved] at has'
        exact absurd has' (not_upper_move hr has hq)
    · refine not_has_move hr has (.head _) (CodeRow.has_stretch.mpr ?_)
      rw [← moved, dotted]
      decide

/-- What is no blank becomes none. -/
theorem isBlank_lowerChar {c : Char} (visible : isBlank c = false) :
    isBlank (lowerChar c) = false := by
  rcases lowerChar_cases c with same | ⟨r, hr, has, moved⟩
  · rw [same, visible]
  · refine Bool.eq_false_iff.mpr fun blank => ?_
    obtain ⟨row, hrow, there⟩ := (isBlank_iff _).mp blank
    rw [moved] at there
    exact not_has_move hr has (.tail _ (List.mem_append_left _ hrow)) there

/-! ## Texts -/

/-- What a character may become: capital I with a dot above becomes two characters, and capital sigma
    another one at the end of a word. -/
inductive Becomes : Char → Char → Prop
  | plain {c : Char} : c ≠ 'İ' → Becomes c (lowerChar c)
  | dotless : Becomes 'İ' 'i'
  | dot : Becomes 'İ' '\u0307'
  | final : Becomes 'Σ' 'ς'

namespace Becomes

variable {c d : Char}

theorem settled (h : Becomes c d) : Settled d := by
  cases h with
  | plain dotted => exact settled_lowerChar dotted
  | dotless | dot | final => exact settled_of_lower (by decide +kernel) (by decide)

theorem visible (h : Becomes c d) (visible : isBlank c = false) : isBlank d = false := by
  cases h with
  | plain => exact isBlank_lowerChar visible
  | dotless | dot | final => decide

end Becomes

/-- A character gives way to what it becomes, which is not nothing. -/
theorem lowerFrom_cons (before : List Char) (c : Char) (rest : List Char) :
    ∃ here, here ≠ [] ∧ (∀ d ∈ here, Becomes c d) ∧
      lowerFrom before (c :: rest) = here ++ lowerFrom (c :: before) rest := by
  rw [lowerFrom]
  refine ⟨_, ?_, ?_, rfl⟩
  · split_ifs <;> exact List.cons_ne_nil _ _
  · intro d hd
    split_ifs at hd with dotted sigma word
    all_goals simp only [List.mem_cons, List.not_mem_nil, or_false] at hd
    · subst dotted
      rcases hd with rfl | rfl
      · exact .dotless
      · exact .dot
    · rw [hd, sigma]
      exact .final
    · rw [hd, ← lowerChar_sigma, ← sigma]
      exact .plain dotted
    · rw [hd]
      exact .plain dotted

theorem lowerFrom_eq_nil_iff {before cs : List Char} : lowerFrom before cs = [] ↔ cs = [] := by
  cases cs with
  | nil => exact iff_of_true rfl rfl
  | cons c rest =>
    obtain ⟨here, some, -, whole⟩ := lowerFrom_cons before c rest
    rw [whole]
    exact iff_of_false (fun none => some (List.append_eq_nil_iff.mp none).1) (List.cons_ne_nil _ _)

theorem becomes_of_mem {before cs : List Char} {d : Char} (h : d ∈ lowerFrom before cs) :
    ∃ c ∈ cs, Becomes c d := by
  induction cs generalizing before with
  | nil => cases h
  | cons c rest ih =>
    obtain ⟨here, -, become, whole⟩ := lowerFrom_cons before c rest
    rw [whole, List.mem_append] at h
    rcases h with first | later
    · exact ⟨c, .head _, become d first⟩
    · obtain ⟨c', there, becomes⟩ := ih later
      exact ⟨c', .tail _ there, becomes⟩

theorem becomes_of_mem_head? {before cs : List Char} {d : Char}
    (h : d ∈ (lowerFrom before cs).head?) : ∃ c ∈ cs.head?, Becomes c d := by
  cases cs with
  | nil => cases h
  | cons c rest =>
    obtain ⟨here, some, become, whole⟩ := lowerFrom_cons before c rest
    rw [whole, List.head?_append_of_ne_nil _ some] at h
    exact ⟨c, rfl, become d (List.mem_of_mem_head? h)⟩

theorem becomes_of_mem_getLast? {before cs : List Char} {d : Char}
    (h : d ∈ (lowerFrom before cs).getLast?) : ∃ c ∈ cs.getLast?, Becomes c d := by
  induction cs generalizing before with
  | nil => cases h
  | cons c rest ih =>
    obtain ⟨here, -, become, whole⟩ := lowerFrom_cons before c rest
    rw [whole] at h
    cases rest with
    | nil =>
      rw [lowerFrom, List.append_nil] at h
      exact ⟨c, rfl, become d (List.mem_of_getLast? h)⟩
    | cons c' rest =>
      rw [List.getLast?_append_of_ne_nil _ (mt lowerFrom_eq_nil_iff.mp (List.cons_ne_nil _ _))] at h
      rw [List.getLast?_cons_cons]
      exact ih h

/-- Settled characters are left alone, wherever they stand. -/
theorem lowerFrom_eq_self {before cs : List Char} (h : ∀ c ∈ cs, Settled c) :
    lowerFrom before cs = cs := by
  induction cs generalizing before with
  | nil => rfl
  | cons c rest ih =>
    obtain ⟨lower, dotless, noSigma⟩ := h c (.head _)
    rw [lowerFrom, if_neg dotless, if_neg noSigma, lower,
      ih fun c' there => h c' (.tail _ there)]
    rfl

theorem lowercase_eq_self {s : String} (h : ∀ c ∈ s.toList, Settled c) : lowercase s = s := by
  rw [lowercase, lowerFrom_eq_self h, String.ofList_toList]

theorem settled_of_mem_lowercase {s : String} {c : Char} (h : c ∈ (lowercase s).toList) :
    Settled c := by
  rw [lowercase, String.toList_ofList] at h
  obtain ⟨_, _, becomes⟩ := becomes_of_mem h
  exact becomes.settled

/-- **Lower case is lower case for good.** -/
theorem lowercase_lowercase (s : String) : lowercase (lowercase s) = lowercase s :=
  lowercase_eq_self fun _ => settled_of_mem_lowercase

/-- **A trimmed text stays trimmed in lower case.** -/
theorem trimText_lowercase {s : String} (trimmed : trimText s = s) :
    trimText (lowercase s) = lowercase s := by
  obtain ⟨first, last⟩ := trimChars_eq_self_iff.mp (trimText_eq_self_iff.mp trimmed)
  refine trimText_eq_self_iff.mpr (trimChars_eq_self_iff.mpr ?_)
  rw [lowercase, String.toList_ofList]
  refine ⟨fun d hd => ?_, fun d hd => ?_⟩
  · obtain ⟨c, hc, becomes⟩ := becomes_of_mem_head? hd
    exact becomes.visible (first c hc)
  · obtain ⟨c, hc, becomes⟩ := becomes_of_mem_getLast? hd
    exact becomes.visible (last c hc)

end BlockStage
