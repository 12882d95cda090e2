/-
  Finite maps that remember the order of first insertion.

  A `Table` is a list of keys with values.  `insert` replaces the value of a key in its place or
  appends it, so a table built by `insert` holds each key once and lists the keys in the order in
  which they first came.  Tables here are small (the entities of a scene, the variables of a
  program), and a list keeps every law one induction away.
-/

namespace BlockStage

/-- A finite map as a list of keys with values. -/
structure Table (κ β : Type) where
  entries : List (κ × β)
deriving Repr

namespace Table

variable {κ β : Type} [BEq κ]

/-- No keys. -/
def empty : Table κ β := ⟨[]⟩

instance : Inhabited (Table κ β) := ⟨empty⟩

/-- The value of a key. -/
def get? (t : Table κ β) (k : κ) : Option β := t.entries.lookup k

/-- Has the key a value? -/
def contains (t : Table κ β) (k : κ) : Bool := (t.get? k).isSome

/-- Puts a value in the place of a key's old one, or at the end. -/
def insertEntry (k : κ) (v : β) : List (κ × β) → List (κ × β)
  | [] => [(k, v)]
  | (k', v') :: rest => if k == k' then (k, v) :: rest else (k', v') :: insertEntry k v rest

/-- Gives a key a value. -/
def insert (t : Table κ β) (k : κ) (v : β) : Table κ β := ⟨insertEntry k v t.entries⟩

/-- Forgets a key. -/
def erase (t : Table κ β) (k : κ) : Table κ β := ⟨t.entries.filter fun e => !(k == e.1)⟩

/-- Changes the value of a key that has one. -/
def modify (t : Table κ β) (k : κ) (f : β → β) : Table κ β :=
  match t.get? k with
  | some v => t.insert k (f v)
  | none => t

/-- The keys in order. -/
def keys (t : Table κ β) : List κ := t.entries.map Prod.fst

/-- The values in order. -/
def values (t : Table κ β) : List β := t.entries.map Prod.snd

/-- Does the table hold nothing? -/
def isEmpty (t : Table κ β) : Bool := t.entries.isEmpty

/-! ## Looking up after a change -/

theorem lookup_insertEntry [LawfulBEq κ] (k j : κ) (v : β) (l : List (κ × β)) :
    (insertEntry k v l).lookup j = if j == k then some v else l.lookup j := by
  induction l with
  | nil => cases h : j == k <;> simp [insertEntry, List.lookup_cons, h]
  | cons e rest ih =>
    obtain ⟨k', v'⟩ := e
    cases hk : k == k'
    · simp only [insertEntry, hk, Bool.false_eq_true, if_false, List.lookup_cons, ih]
      cases hj : j == k'
      · rfl
      · have : (j == k) = false := by grind
        simp [this]
    · simp only [insertEntry, hk, if_true, List.lookup_cons]
      have := eq_of_beq hk
      subst this
      cases j == k <;> rfl

theorem get?_insert [LawfulBEq κ] (t : Table κ β) (k j : κ) (v : β) :
    (t.insert k v).get? j = if j == k then some v else t.get? j :=
  lookup_insertEntry k j v t.entries

theorem get?_erase [LawfulBEq κ] (t : Table κ β) (k j : κ) :
    (t.erase k).get? j = if j == k then none else t.get? j := by
  obtain ⟨l⟩ := t
  simp only [get?, erase]
  induction l with
  | nil => simp
  | cons e rest ih =>
    obtain ⟨k', v'⟩ := e
    cases hk : k == k'
    · simp only [List.filter, hk, Bool.not_false, List.lookup_cons, ih]
      cases hj : j == k'
      · rfl
      · have : (j == k) = false := by grind
        simp [this]
    · have := eq_of_beq hk
      subst this
      simp only [List.filter, hk, Bool.not_true, List.lookup_cons, ih]
      cases hj : j == k <;> simp

end Table

end BlockStage
