/-
  Tables: what a change leaves to be found.

  Replacing a value leaves the keys and their order, a new key goes to the end, and erasing takes one
  key away; so where no key comes twice, none ever does, and an entry is what its key leads to.
-/
import BlockStage.Table
import Mathlib.Data.List.Nodup

namespace BlockStage

namespace Table

variable {κ β γ : Type} [BEq κ] [LawfulBEq κ]

/-! ## Changing in place -/

/-- What is read off the entries stays if it is the same for the old value and the new. -/
theorem map_insertEntry (g : κ × β → γ) {k : κ} {old new : β} {l : List (κ × β)}
    (hk : l.lookup k = some old) (hg : g (k, new) = g (k, old)) :
    (insertEntry k new l).map g = l.map g := by
  induction l with
  | nil => simp at hk
  | cons e rest ih =>
    obtain ⟨k', v'⟩ := e
    rw [List.lookup_cons] at hk
    rw [insertEntry]
    by_cases h : k == k'
    · rw [h] at hk
      obtain rfl := eq_of_beq h
      obtain rfl := Option.some.inj hk
      rw [if_pos h, List.map_cons, List.map_cons, hg]
    · rw [Bool.eq_false_iff.mpr h] at hk
      rw [if_neg h, List.map_cons, List.map_cons, ih hk]

omit [LawfulBEq κ] in
theorem mem_insertEntry {k : κ} {v : β} {l : List (κ × β)} {e : κ × β}
    (he : e ∈ insertEntry k v l) : e = (k, v) ∨ e ∈ l := by
  induction l with
  | nil => exact .inl (List.mem_singleton.mp he)
  | cons first rest ih =>
    rw [insertEntry] at he
    split at he
    · rcases List.mem_cons.mp he with h | h
      · exact .inl h
      · exact .inr (List.mem_cons_of_mem _ h)
    · rcases List.mem_cons.mp he with h | h
      · exact .inr (h ▸ List.mem_cons_self)
      · exact (ih h).imp_right (List.mem_cons_of_mem _)

theorem get?_modify (t : Table κ β) (k j : κ) (f : β → β) :
    (t.modify k f).get? j = if j == k then (t.get? k).map f else t.get? j := by
  rw [modify]
  cases known : t.get? k with
  | some v => exact t.get?_insert k j (f v)
  | none =>
    show t.get? j = if j == k then none else t.get? j
    by_cases same : (j == k) = true
    · rw [if_pos same, eq_of_beq same, known]
    · rw [if_neg same]

omit [LawfulBEq κ] in
theorem get?_map (l : List (κ × β)) (f : β → β) (k : κ) :
    (⟨l.map fun e => (e.1, f e.2)⟩ : Table κ β).get? k = ((⟨l⟩ : Table κ β).get? k).map f := by
  rw [get?, get?]
  induction l with
  | nil => rfl
  | cons e rest ih =>
    rw [List.map_cons, List.lookup_cons, List.lookup_cons]
    cases k == e.1 with
    | true => rfl
    | false => exact ih

theorem mem_of_get? {t : Table κ β} {k : κ} {v : β} (h : t.get? k = some v) :
    (k, v) ∈ t.entries := by
  obtain ⟨before, after, hl, -⟩ := List.lookup_eq_some_iff.mp h
  rw [hl]
  exact List.mem_append_right _ List.mem_cons_self

/-! ## Growing and shrinking -/

/-- A new key goes to the end. -/
theorem insertEntry_of_notMem {k : κ} {v : β} {l : List (κ × β)} (h : k ∉ l.map Prod.fst) :
    insertEntry k v l = l ++ [(k, v)] := by
  induction l with
  | nil => rfl
  | cons e rest ih =>
    rw [List.map_cons, List.mem_cons, not_or] at h
    rw [insertEntry, if_neg (fun he => h.1 (eq_of_beq he)), ih h.2]
    rfl

theorem mem_keys {t : Table κ β} {k : κ} : k ∈ t.keys ↔ t.contains k = true := by
  rw [contains, get?, Option.isSome_iff_ne_none, Ne, List.lookup_eq_none_iff, keys, List.mem_map]
  constructor
  · rintro ⟨e, he, rfl⟩ none
    simpa using none e he
  · intro some
    by_contra none
    exact some fun e he => bne_iff_ne.mpr fun h => none ⟨e, he, h.symm⟩

theorem contains_insert (t : Table κ β) (k j : κ) (v : β) :
    (t.insert k v).contains j = (j == k || t.contains j) := by
  rw [contains, get?_insert]
  cases j == k <;> rfl

theorem contains_erase (t : Table κ β) (k j : κ) :
    (t.erase k).contains j = (!(j == k) && t.contains j) := by
  rw [contains, get?_erase]
  cases j == k <;> rfl

/-! ## Keys and entries -/

theorem nodup_keys_insert {t : Table κ β} (ht : t.keys.Nodup) (k : κ) (v : β) :
    (t.insert k v).keys.Nodup := by
  by_cases known : k ∈ t.keys
  · obtain ⟨old, hold⟩ := Option.isSome_iff_exists.mp (mem_keys.mp known)
    have same : (t.insert k v).keys = t.keys := map_insertEntry Prod.fst hold rfl
    exact same ▸ ht
  · have last : (t.insert k v).keys = t.keys ++ [k] := by
      rw [keys, insert, insertEntry_of_notMem known, List.map_append]
      rfl
    rw [last]
    exact List.nodup_append_comm.mp (List.nodup_cons.mpr ⟨known, ht⟩)

omit [LawfulBEq κ] in
theorem nodup_keys_erase {t : Table κ β} (ht : t.keys.Nodup) (k : κ) : (t.erase k).keys.Nodup :=
  (List.filter_sublist.map Prod.fst).nodup ht

/-- Where no key comes twice, an entry is what its key leads to. -/
theorem mem_entries_iff {t : Table κ β} (ht : t.keys.Nodup) {k : κ} {v : β} :
    (k, v) ∈ t.entries ↔ t.get? k = some v := by
  refine ⟨fun there => ?_, mem_of_get?⟩
  obtain ⟨before, after, split⟩ := List.append_of_mem there
  refine List.lookup_eq_some_iff.mpr ⟨before, after, split, fun e he => ?_⟩
  -- an earlier entry of that key would make the key come twice
  rw [keys, split, List.map_append, List.map_cons] at ht
  have apart := (List.nodup_append.mp ht).2.2 e.1 (List.mem_map_of_mem he) k List.mem_cons_self
  exact bne_iff_ne.mpr fun same => apart same.symm

theorem get?_foldl_erase (l : List κ) (t : Table κ β) (k : κ) :
    (l.foldl erase t).get? k = if l.contains k then none else t.get? k := by
  induction l generalizing t with
  | nil => rfl
  | cons j l ih =>
    rw [List.foldl_cons, ih, get?_erase, List.contains_cons]
    cases l.contains k with
    | true => rw [Bool.or_true]; rfl
    | false => rw [Bool.or_false]; rfl

omit [LawfulBEq κ] in
theorem nodup_keys_foldl_erase {t : Table κ β} (ht : t.keys.Nodup) (l : List κ) :
    (l.foldl erase t).keys.Nodup := by
  induction l generalizing t with
  | nil => exact ht
  | cons j l ih => exact ih (nodup_keys_erase ht j)

end Table

end BlockStage
