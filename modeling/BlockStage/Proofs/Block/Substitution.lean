/-
  Renaming as a substitution: all references at once, each at most once, and nothing else.

  1. **The specification** — the tables give a field another text if it is the reference field of a
     known type of block, its text is not reserved, and the table of its kind leads to a different
     one (`RemapTables.Takes`).  A substitution puts that text in the place of each such value, as
     the value was before, and keeps all the others (`Program.mapFields`).

  2. **The crux (`RemapTables.remapFields_eq`)** — one block.  Its fields are in the order of their
     names, as in a map, so the reference field is the only one of its name and stays in its place.

  3. **What is ordered** — every program that is read (`Program.ordered_of_parse?`).
-/
import BlockStage.Proofs.Block.Rename

namespace BlockStage

/-! ## Fields in place -/

/-- A field where it stands: the type of its block, its name and its value. -/
structure Leaf where
  type : String
  name : String
  value : Value

namespace Block

/-- The fields of a block itself. -/
def leaves (b : Block) : List Leaf := b.fields.map fun e => ⟨b.type, e.1, e.2⟩

mutual

/-- A block of the same shape and types, with the same fields in it and in the blocks inside, and
    other values. -/
def mapFields (f : Leaf → Value) : Block → Block
  | .mk type fields inputs statements =>
    .mk type (fields.map fun e => (e.1, f ⟨type, e.1, e.2⟩)) (mapInputs f inputs)
      (mapBodies f statements)

/-- Value slots with other values in the fields. -/
def mapInputs (f : Leaf → Value) : List (String × Block) → List (String × Block)
  | [] => []
  | (k, b) :: rest => (k, mapFields f b) :: mapInputs f rest

/-- Bodies with other values in the fields. -/
def mapBodies (f : Leaf → Value) : List (String × List Block) → List (String × List Block)
  | [] => []
  | (k, l) :: rest => (k, mapList f l) :: mapBodies f rest

/-- A list of blocks with other values in the fields. -/
def mapList (f : Leaf → Value) : List Block → List Block
  | [] => []
  | b :: rest => mapFields f b :: mapList f rest

end

theorem leafMap_value (type : String) (fields : List (String × Value)) :
    (fields.map fun e => (e.1, (Leaf.mk type e.1 e.2).value)) = fields :=
  List.map_id fields

mutual

/-- With the values that are there nothing changes. -/
theorem mapFields_value : ∀ b : Block, b.mapFields Leaf.value = b
  | .mk type fields inputs statements => by
    rw [mapFields, leafMap_value, mapInputs_value inputs, mapBodies_value statements]

theorem mapInputs_value : ∀ inputs : List (String × Block), mapInputs Leaf.value inputs = inputs
  | [] => rfl
  | (_, b) :: rest => by rw [mapInputs, mapFields_value b, mapInputs_value rest]

theorem mapBodies_value : ∀ statements : List (String × List Block),
    mapBodies Leaf.value statements = statements
  | [] => rfl
  | (_, l) :: rest => by rw [mapBodies, mapList_value l, mapBodies_value rest]

theorem mapList_value : ∀ l : List Block, mapList Leaf.value l = l
  | [] => rfl
  | b :: rest => by rw [mapList, mapFields_value b, mapList_value rest]

end

end Block

/-- The fields of some blocks, in order. -/
def leavesOf (bs : List Block) : List Leaf := bs.flatMap Block.leaves

theorem leavesOf_singleton (b : Block) : leavesOf [b] = b.leaves := List.append_nil _

open Classical in
/-- How many of some fields are given another value. -/
noncomputable def changes (f : Leaf → Value) (ls : List Leaf) : Nat :=
  ls.countP fun l => decide (f l ≠ l.value)

namespace Program

/-- A program of the same shape with other values in the fields. -/
def mapFields (f : Leaf → Value) (p : Program) : Program := Block.mapList f p

/-- All fields of a program, in the order of a walk. -/
def leaves (p : Program) : List Leaf := leavesOf p.walk

end Program

theorem changes_append (f : Leaf → Value) (l l' : List Leaf) :
    changes f (l ++ l') = changes f l + changes f l' :=
  List.countP_append

theorem changes_leavesOf_append (f : Leaf → Value) (l l' : List Block) :
    changes f (leavesOf (l ++ l')) = changes f (leavesOf l) + changes f (leavesOf l') := by
  rw [leavesOf, List.flatMap_append]
  exact changes_append f _ _

theorem changes_cons_of_ne {f : Leaf → Value} {l : Leaf} (h : f l ≠ l.value) (ls : List Leaf) :
    changes f (l :: ls) = changes f ls + 1 := by
  classical
  exact List.countP_cons_of_pos (decide_eq_true h)

/-- Where every value is kept there is no change. -/
theorem changes_of_kept {f : Leaf → Value} {ls : List Leaf} (kept : ∀ l ∈ ls, f l = l.value) :
    changes f ls = 0 := by
  classical
  exact List.countP_eq_zero.mpr fun l hl changed => of_decide_eq_true changed (kept l hl)

/-! ## The specification -/

namespace RemapTables

/-- The table of a kind of reference gives a new text for a text: the name of a group is looked up
    without the mark in front of it, and costumes are looked up nowhere. -/
inductive Gives (t : RemapTables) : ReferenceKind → String → String → Prop where
  | entity {id new : String} (h : t.entities.get? id = some new) : Gives t .entity id new
  | group {id name new : String} (named : id = Token.component ++ name)
    (h : t.components.get? name = some new) : Gives t .sensingTarget id (Token.component ++ new)
  | sensed {id new : String} (single : ∀ name, id ≠ Token.component ++ name)
    (h : t.entities.get? id = some new) : Gives t .sensingTarget id new
  | variable {id new : String} (h : t.variableNames.get? id = some new) : Gives t .variable id new
  | sound {id new : String} (h : t.sounds.get? id = some new) : Gives t .sound id new

/-- A field takes a new text: it is the reference field of a known type of block, its text is not
    reserved, and the table gives it a different one. -/
def Takes (t : RemapTables) (l : Leaf) (new : String) : Prop :=
  ∃ r ∈ referenceFields, BlockKind.parse? l.type = some r.block ∧ r.field = l.name ∧
    Token.isReserved l.value.toText = false ∧ t.Gives r.kind l.value.toText new ∧
    new ≠ l.value.toText

/-- Values that fields have after renaming: the text that they take, and otherwise the old value. -/
structure Substitutes (t : RemapTables) (f : Leaf → Value) : Prop where
  taken : ∀ l new, t.Takes l new → f l = .text new
  kept : ∀ l, (∀ new, ¬t.Takes l new) → f l = l.value

variable {t : RemapTables} {type : String} {fields : List (String × Value)}

/-! ## One reference -/

/-- No kind of block has two reference fields. -/
theorem referenceField?_eq_some_iff {k : BlockKind} {r : ReferenceField} :
    referenceField? k = some r ↔ r ∈ referenceFields ∧ r.block = k := by
  have once : ∀ r ∈ referenceFields, referenceField? r.block = some r := by decide
  refine ⟨fun h => ?_, ?_⟩
  · exact ⟨List.mem_of_find?_eq_some h, eq_of_beq (List.find?_some h :)⟩
  · rintro ⟨there, rfl⟩
    exact once r there

/-- What a text that is not reserved is renamed to is what the tables give for it. -/
theorem gives_iff_of_free {kind : ReferenceKind} {literal new : String}
    (free : Token.isReserved literal = false) :
    t.rename? kind literal = some new ↔ t.Gives kind literal new := by
  cases kind with
  | entity =>
    have looked : t.rename? .entity literal = t.entities.get? literal := by rw [rename?, free]; rfl
    rw [looked]
    refine ⟨.entity, fun gives => ?_⟩
    cases gives with
    | entity h => exact h
  | «variable» =>
    have looked : t.rename? .variable literal = t.variableNames.get? literal := by
      rw [rename?, free]; rfl
    rw [looked]
    refine ⟨.variable, fun gives => ?_⟩
    cases gives with
    | «variable» h => exact h
  | sound =>
    have looked : t.rename? .sound literal = t.sounds.get? literal := by rw [rename?, free]; rfl
    rw [looked]
    refine ⟨.sound, fun gives => ?_⟩
    cases gives with
    | sound h => exact h
  | costume =>
    have looked : t.rename? .costume literal = none := by rw [rename?, free]; rfl
    rw [looked]
    exact iff_of_false (fun h => (by cases h)) fun h => (by cases h)
  | sensingTarget =>
    rw [rename?_of_free free]
    cases mark : Token.afterComponent? literal with
    | some name =>
      have named := Token.eq_of_afterComponent? mark
      constructor
      · intro h
        obtain ⟨new, there, rfl⟩ := Option.map_eq_some_iff.mp h
        exact .group named there
      · rintro (_ | ⟨named', there⟩ | ⟨single, -⟩)
        · rw [named', Token.afterComponent?_component] at mark
          exact Option.map_eq_some_iff.mpr ⟨_, Option.some.inj mark ▸ there, rfl⟩
        · exact absurd named (single name)
    | none =>
      constructor
      · refine fun h => .sensed (fun name named => ?_) h
        rw [named, Token.afterComponent?_component] at mark
        cases mark
      · rintro (_ | ⟨named, -⟩ | ⟨-, there⟩)
        · rw [named, Token.afterComponent?_component] at mark
          cases mark
        · exact there

/-- A field takes a text if the one reference field of its block's type has its name, and its text is
    renamed to another. -/
theorem takes_iff {l : Leaf} {new : String} :
    t.Takes l new ↔ ∃ r, (BlockKind.parse? l.type).bind referenceField? = some r ∧
      r.field = l.name ∧ t.rename? r.kind l.value.toText = some new ∧ new ≠ l.value.toText := by
  constructor
  · rintro ⟨r, there, known, name, free, gives, other⟩
    have field := referenceField?_eq_some_iff.mpr ⟨there, rfl⟩
    exact ⟨r, Option.bind_eq_some_iff.mpr ⟨r.block, known, field⟩, name,
      (gives_iff_of_free free).mpr gives, other⟩
  · rintro ⟨r, found, name, renamed, other⟩
    obtain ⟨k, known, field⟩ := Option.bind_eq_some_iff.mp found
    obtain ⟨there, rfl⟩ := referenceField?_eq_some_iff.mp field
    have free : Token.isReserved l.value.toText = false := by
      refine Bool.eq_false_iff.mpr fun reserved => ?_
      rw [rename?_of_reserved reserved] at renamed
      cases renamed
    exact ⟨r, there, known, name, free, (gives_iff_of_free free).mp renamed, other⟩

/-- The value that a field has after renaming. -/
def substitute (t : RemapTables) (l : Leaf) : Value :=
  match (BlockKind.parse? l.type).bind referenceField? with
  | none => l.value
  | some r =>
    if r.field = l.name then
      match t.rename? r.kind l.value.toText with
      | some new => if new = l.value.toText then l.value else .text new
      | none => l.value
    else l.value

theorem substitutes_substitute (t : RemapTables) : t.Substitutes t.substitute where
  taken l new h := by
    obtain ⟨r, found, name, renamed, other⟩ := takes_iff.mp h
    simp only [substitute, found, if_pos name, renamed, if_neg other]
  kept l never := by
    rw [substitute]
    split
    · rfl
    rename_i r found
    split
    · rename_i name
      split
      · rename_i new renamed
        by_contra changed
        have other : new ≠ l.value.toText := fun same => changed (if_pos same)
        exact never new (takes_iff.mpr ⟨r, found, name, renamed, other⟩)
      · rfl
    · rfl

end RemapTables

/-! ## Fields in order -/

/-- The entries are in the order of their keys, and no key comes twice. -/
def SortedByKey {β : Type} (l : List (String × β)) : Prop := l.Pairwise fun e e' => e.1 < e'.1

/-- In the place of its key goes an entry whose key is there. -/
theorem insertSorted_present {β : Type} {k : String} {v old : β} {front rest : List (String × β)}
    (below : ∀ e ∈ front, e.1 < k) :
    insertSorted k v (front ++ (k, old) :: rest) = front ++ (k, v) :: rest := by
  induction front with
  | nil => exact if_pos rfl
  | cons e front ih =>
    have first : e.1 < k := below e List.mem_cons_self
    have other : k ≠ e.1 := fun same => String.lt_irrefl k (same ▸ first)
    rw [List.cons_append, insertSorted, if_neg other, if_neg (String.lt_asymm first),
      ih fun e he => below e (List.mem_cons_of_mem _ he)]
    rfl

/-- At the end goes an entry whose key is behind all that are there. -/
theorem insertSorted_last {β : Type} {k : String} {v : β} {l : List (String × β)}
    (below : ∀ e ∈ l, e.1 < k) : insertSorted k v l = l ++ [(k, v)] := by
  induction l with
  | nil => rfl
  | cons e l ih =>
    have first : e.1 < k := below e List.mem_cons_self
    have other : k ≠ e.1 := fun same => String.lt_irrefl k (same ▸ first)
    rw [insertSorted, if_neg other, if_neg (String.lt_asymm first),
      ih fun e he => below e (List.mem_cons_of_mem _ he)]
    rfl

theorem SortedByKey.around {β : Type} {e : String × β} {front rest : List (String × β)}
    (sorted : SortedByKey (front ++ e :: rest)) :
    (∀ a ∈ front, a.1 < e.1) ∧ ∀ a ∈ rest, e.1 < a.1 := by
  obtain ⟨-, above, across⟩ := List.pairwise_append.mp sorted
  exact ⟨fun a ha => across a ha e List.mem_cons_self, (List.pairwise_cons.mp above).1⟩

/-- A list in order is put in order as it is. -/
theorem SortedByKey.sortedByKey_eq {β : Type} {l : List (String × β)} (sorted : SortedByKey l) :
    sortedByKey l = l := by
  have grown : ∀ (rest acc : List (String × β)), SortedByKey (acc ++ rest) →
      rest.foldl (fun acc e => insertSorted e.1 e.2 acc) acc = acc ++ rest := by
    intro rest
    induction rest with
    | nil => exact fun acc _ => (List.append_nil acc).symm
    | cons e rest ih =>
      intro acc sorted
      rw [List.foldl_cons, insertSorted_last sorted.around.1, List.append_cons acc e rest]
      exact ih _ (List.append_cons acc e rest ▸ sorted)
  exact grown l [] sorted

/-- The fields of every block in a program are in order, as they are in a map. -/
def Program.Ordered (p : Program) : Prop := ∀ b ∈ p.walk, SortedByKey b.fields

/-! ## What is read -/

theorem mem_insertSorted {β : Type} {k : String} {v : β} {l : List (String × β)} {e : String × β}
    (he : e ∈ insertSorted k v l) : e = (k, v) ∨ e ∈ l := by
  induction l with
  | nil => exact .inl (List.mem_singleton.mp he)
  | cons first rest ih =>
    rw [insertSorted] at he
    split at he
    · exact (List.mem_cons.mp he).imp_right (List.mem_cons_of_mem _)
    split at he
    · exact List.mem_cons.mp he
    · rcases List.mem_cons.mp he with same | there
      · exact .inr (same ▸ List.mem_cons_self)
      · exact (ih there).imp_right (List.mem_cons_of_mem _)

theorem SortedByKey.insert {β : Type} {l : List (String × β)} (sorted : SortedByKey l)
    (k : String) (v : β) : SortedByKey (insertSorted k v l) := by
  induction l with
  | nil => exact List.pairwise_singleton _ _
  | cons first rest ih =>
    obtain ⟨above, later⟩ := List.pairwise_cons.mp sorted
    rw [insertSorted]
    split
    · rename_i same
      exact List.pairwise_cons.mpr ⟨fun e he => same ▸ above e he, later⟩
    rename_i other
    split
    · rename_i less
      refine List.pairwise_cons.mpr ⟨fun e he => ?_, sorted⟩
      rcases List.mem_cons.mp he with rfl | there
      · exact less
      · exact String.lt_trans less (above e there)
    · rename_i notLess
      refine List.pairwise_cons.mpr ⟨fun e he => ?_, ih later⟩
      rcases mem_insertSorted he with rfl | there
      · exact ((Std.lt_trichotomy first.1 k).resolve_right fun h =>
          h.elim (fun same => other same.symm) notLess)
      · exact above e there

theorem mem_sortedByKey {β : Type} {l : List (String × β)} {e : String × β}
    (he : e ∈ sortedByKey l) : e ∈ l := by
  have grown : ∀ (l acc : List (String × β)),
      e ∈ l.foldl (fun acc e => insertSorted e.1 e.2 acc) acc → e ∈ acc ∨ e ∈ l := by
    intro l
    induction l with
    | nil => exact fun acc h => .inl h
    | cons first rest ih =>
      intro acc h
      rcases ih _ h with there | there
      · rcases mem_insertSorted there with same | there
        · exact .inr (same ▸ List.mem_cons_self)
        · exact .inl there
      · exact .inr (List.mem_cons_of_mem _ there)
  exact (grown l [] he).resolve_left List.not_mem_nil

theorem sortedByKey_sortedByKey {β : Type} (l : List (String × β)) : SortedByKey (sortedByKey l) := by
  have kept : ∀ (l acc : List (String × β)), SortedByKey acc →
      SortedByKey (l.foldl (fun acc e => insertSorted e.1 e.2 acc) acc) := by
    intro l
    induction l with
    | nil => exact fun acc h => h
    | cons first rest ih => exact fun acc h => ih _ (h.insert first.1 first.2)
  exact kept l [] List.Pairwise.nil

/-- What is read one by one is read from somewhere. -/
theorem exists_of_mapM {α β : Type} {f : α → Option β} {l : List α} {read : List β}
    (h : l.mapM f = some read) {y : β} (hy : y ∈ read) : ∃ x ∈ l, f x = some y := by
  induction l generalizing read with
  | nil =>
    obtain rfl := Option.some.inj h
    cases hy
  | cons x l ih =>
    rw [List.mapM_cons] at h
    obtain ⟨first, hfirst, h⟩ := Option.bind_eq_some_iff.mp h
    obtain ⟨rest, hrest, h⟩ := Option.bind_eq_some_iff.mp h
    obtain rfl := Option.some.inj h
    rcases List.mem_cons.mp hy with rfl | there
    · exact ⟨x, List.mem_cons_self, hfirst⟩
    · obtain ⟨x', hx', found⟩ := ih hrest there
      exact ⟨x', List.mem_cons_of_mem _ hx', found⟩

namespace Decoder

variable {α : Type} {d : Decoder α} {room : Nat} {j : Json}

/-- The members of a map that is read are in order, and each is read by the decoder. -/
theorem map_read {l : List (String × α)} (h : Decoder.map d room j = some l) :
    SortedByKey l ∧ ∀ e ∈ l, ∃ room j, d room j = some e.2 := by
  rw [Decoder.map.eq_def] at h
  split at h
  · obtain ⟨all, -, h⟩ := Option.bind_eq_some_iff.mp h
    obtain ⟨read, each, h⟩ := Option.bind_eq_some_iff.mp h
    obtain rfl := Option.some.inj h
    refine ⟨sortedByKey_sortedByKey read, fun e he => ?_⟩
    obtain ⟨m, -, found⟩ := exists_of_mapM each (mem_sortedByKey he)
    obtain ⟨v, hv, rfl⟩ := Option.map_eq_some_iff.mp found
    exact ⟨_, _, hv⟩
  · cases h

theorem list_read {l : List α} (h : Decoder.list d room j = some l) :
    ∀ x ∈ l, ∃ room j, d room j = some x := by
  rw [Decoder.list.eq_def] at h
  split at h
  · intro x hx
    obtain ⟨m, -, found⟩ := exists_of_mapM h hx
    exact ⟨_, _, found⟩
  · cases h

end Decoder

theorem Fields.withDefault_cases {α : Type} {fs : Fields} {name : String} {d : Decoder α}
    {default x : α} (h : fs.withDefault name d default = some x) :
    x = default ∨ ∃ j, d fs.room j = some x := by
  rw [Fields.withDefault] at h
  split at h
  · exact .inr ⟨_, h⟩
  · exact .inl (Option.some.inj h).symm

namespace Block

theorem mem_inputWalk {inputs : List (String × Block)} {x : Block} (hx : x ∈ inputWalk inputs) :
    ∃ e ∈ inputs, x ∈ e.2.walk := by
  induction inputs with
  | nil => cases hx
  | cons e rest ih =>
    rw [inputWalk] at hx
    rcases List.mem_append.mp hx with there | there
    · exact ⟨e, List.mem_cons_self, there⟩
    · exact (ih there).imp fun e h => ⟨List.mem_cons_of_mem _ h.1, h.2⟩

theorem mem_listWalk {l : List Block} {x : Block} (hx : x ∈ listWalk l) : ∃ b ∈ l, x ∈ b.walk := by
  induction l with
  | nil => cases hx
  | cons b rest ih =>
    rw [listWalk] at hx
    rcases List.mem_append.mp hx with there | there
    · exact ⟨b, List.mem_cons_self, there⟩
    · exact (ih there).imp fun b h => ⟨List.mem_cons_of_mem _ h.1, h.2⟩

theorem mem_bodyWalk {statements : List (String × List Block)} {x : Block}
    (hx : x ∈ bodyWalk statements) : ∃ e ∈ statements, ∃ b ∈ e.2, x ∈ b.walk := by
  induction statements with
  | nil => cases hx
  | cons e rest ih =>
    rw [bodyWalk] at hx
    rcases List.mem_append.mp hx with there | there
    · exact ⟨e, List.mem_cons_self, mem_listWalk there⟩
    · exact (ih there).imp fun e h => ⟨List.mem_cons_of_mem _ h.1, h.2⟩

/-- The fields of every block in a block that is read are in order. -/
theorem sorted_of_decode {room : Nat} {j : Json} {b : Block} (h : decode room j = some b) :
    ∀ x ∈ b.walk, SortedByKey x.fields := by
  induction room using Nat.strongRecOn generalizing j b with
  | ind room ih =>
    rw [decode] at h
    obtain ⟨fs, -, h⟩ := Option.bind_eq_some_iff.mp h
    obtain ⟨type, -, h⟩ := Option.bind_eq_some_iff.mp h
    obtain ⟨fields, readFields, h⟩ := Option.bind_eq_some_iff.mp h
    obtain ⟨inputs, readInputs, h⟩ := Option.bind_eq_some_iff.mp h
    obtain ⟨statements, readStatements, h⟩ := Option.bind_eq_some_iff.mp h
    obtain rfl := Option.some.inj h
    have inner : ∀ {r : Nat} {j : Json} {c : Block},
        (if _h : r < room then decode r j else none) = some c → ∀ x ∈ c.walk, SortedByKey x.fields := by
      intro r j c found
      split at found
      · exact ih r ‹_› found
      · cases found
    intro x hx
    rw [walk] at hx
    rcases List.mem_cons.mp hx with rfl | hx
    · rcases Fields.withDefault_cases readFields with rfl | ⟨j, read⟩
      · exact List.Pairwise.nil
      · exact (Decoder.map_read read).1
    rcases List.mem_append.mp hx with hx | hx
    · obtain ⟨e, he, hx⟩ := mem_inputWalk hx
      rcases Fields.withDefault_cases readInputs with rfl | ⟨j, read⟩
      · cases he
      · obtain ⟨r, j, found⟩ := (Decoder.map_read read).2 e he
        exact inner found x hx
    · obtain ⟨e, he, c, hc, hx⟩ := mem_bodyWalk hx
      rcases Fields.withDefault_cases readStatements with rfl | ⟨j, read⟩
      · cases he
      · obtain ⟨r, j, found⟩ := (Decoder.map_read read).2 e he
        obtain ⟨r, j, found⟩ := Decoder.list_read found c hc
        exact inner found x hx

end Block

/-- Every program that is read from a text is ordered. -/
theorem Program.ordered_of_parse? {text : String} {p : Program} (h : Program.parse? text = some p) :
    p.Ordered := by
  obtain ⟨j, -, h⟩ := Option.bind_eq_some_iff.mp h
  intro x hx
  obtain ⟨b, hb, hx⟩ := Block.mem_listWalk hx
  obtain ⟨r, j, found⟩ := Decoder.list_read h b hb
  exact Block.sorted_of_decode found x hx

namespace RemapTables

variable {t : RemapTables} {type : String} {fields : List (String × Value)}

/-! ## One block -/

/-- The fields of a block of some type with other values. -/
theorem map_of_kept {f : Leaf → Value} (type : String)
    (kept : ∀ e ∈ fields, f ⟨type, e.1, e.2⟩ = e.2) :
    fields.map (fun e => (e.1, f ⟨type, e.1, e.2⟩)) = fields ∧
      changes f (fields.map fun e => ⟨type, e.1, e.2⟩) = 0 := by
  constructor
  · refine (List.map_congr_left fun e he => ?_).trans (List.map_id fields)
    exact Prod.ext rfl (kept e he)
  · refine changes_of_kept fun l hl => ?_
    obtain ⟨e, he, rfl⟩ := List.mem_map.mp hl
    exact kept e he

/-- Where no field takes a text, the fields stay. -/
theorem remapFields_of_never (never : ∀ e ∈ fields, ∀ new, ¬t.Takes ⟨type, e.1, e.2⟩ new) :
    t.remapFields type fields = (fields, 0) := by
  rw [remapFields]
  split
  · rfl
  rename_i r known
  split
  · rfl
  rename_i current found
  have there : (r.field, current) ∈ fields := by
    obtain ⟨front, rest, rfl, -⟩ := List.lookup_eq_some_iff.mp found
    exact List.mem_append_right _ List.mem_cons_self
  dsimp only
  split
  · rename_i new renamed
    by_contra changed
    have other : new ≠ current.toText := fun same => changed (if_pos same)
    exact never _ there new (takes_iff.mpr ⟨r, known, rfl, renamed, other⟩)
  · rfl

/-- The field that takes a text gets it where it stands. -/
theorem remapFields_of_takes {name new : String} {current : Value}
    {front rest : List (String × Value)} (below : ∀ e ∈ front, e.1 < name)
    (takes : t.Takes ⟨type, name, current⟩ new) :
    t.remapFields type (front ++ (name, current) :: rest)
      = (front ++ (name, .text new) :: rest, 1) := by
  obtain ⟨r, known, rfl, renamed, other⟩ := takes_iff.mp takes
  have found : (front ++ (r.field, current) :: rest).lookup r.field = some current := by
    refine List.lookup_eq_some_iff.mpr ⟨front, rest, rfl, fun e he => bne_iff_ne.mpr fun same => ?_⟩
    exact String.lt_irrefl r.field (same ▸ below e he)
  simp only [remapFields, known, found, renamed, if_neg other, insertSorted_present below]

/-- Only one name can take a text in the blocks of a type. -/
theorem Takes.same_name {l l' : Leaf} {new new' : String} (h : t.Takes l new)
    (h' : t.Takes l' new') (type : l'.type = l.type) : l'.name = l.name := by
  obtain ⟨r, known, name, -⟩ := takes_iff.mp h
  obtain ⟨r', known', name', -⟩ := takes_iff.mp h'
  rw [type, known] at known'
  rw [← name, ← name', Option.some.inj known']

/-- **One block**: renaming its fields substitutes in them, and counts the changes. -/
theorem remapFields_eq {f : Leaf → Value} (hf : t.Substitutes f) (type : String)
    (sorted : SortedByKey fields) :
    t.remapFields type fields = (fields.map fun e => (e.1, f ⟨type, e.1, e.2⟩),
      changes f (fields.map fun e => ⟨type, e.1, e.2⟩)) := by
  by_cases any : ∃ e ∈ fields, ∃ new, t.Takes ⟨type, e.1, e.2⟩ new
  · obtain ⟨⟨name, current⟩, there, new, takes⟩ := any
    obtain ⟨front, rest, rfl⟩ := List.append_of_mem there
    obtain ⟨below, above⟩ := sorted.around
    have keep : ∀ e : String × Value, e.1 ≠ name → f ⟨type, e.1, e.2⟩ = e.2 := fun e apart =>
      hf.kept _ fun new' takes' => apart (takes.same_name takes' rfl)
    obtain ⟨before, none⟩ := map_of_kept type fun e he =>
      keep e fun same => String.lt_irrefl _ (same ▸ below e he)
    obtain ⟨after, none'⟩ := map_of_kept type fun e he =>
      keep e fun same => String.lt_irrefl _ (same ▸ above e he)
    have change : f ⟨type, name, current⟩ = .text new := hf.taken _ _ takes
    have changed : f ⟨type, name, current⟩ ≠ current := fun same => by
      obtain ⟨r, -, -, -, other⟩ := takes_iff.mp takes
      exact other (congrArg Value.toText (change.symm.trans same))
    rw [remapFields_of_takes below takes, List.map_append, List.map_cons, List.map_append,
      List.map_cons, before, after, change, changes_append, none, changes_cons_of_ne changed, none']
  · have never : ∀ e ∈ fields, ∀ new, ¬t.Takes ⟨type, e.1, e.2⟩ new := fun e he new takes =>
      any ⟨e, he, new, takes⟩
    obtain ⟨same, none⟩ := map_of_kept type fun e he => hf.kept _ (never e he)
    rw [remapFields_of_never never, same, none]

/-! ## Programs -/

section
variable {f : Leaf → Value}

mutual

/-- Renaming substitutes in a block and in all blocks inside, and counts the changes. -/
theorem remapBlock_eq (hf : t.Substitutes f) : ∀ b : Block, (∀ x ∈ b.walk, SortedByKey x.fields) →
    t.remapBlock b = (b.mapFields f, changes f (leavesOf b.walk))
  | .mk type fields inputs statements, ordered => by
    rw [Block.walk] at ordered ⊢
    have inside : ∀ x ∈ Block.inputWalk inputs ++ Block.bodyWalk statements,
        SortedByKey x.fields := fun x hx => ordered x (List.mem_cons_of_mem _ hx)
    have own : SortedByKey fields := ordered _ List.mem_cons_self
    rw [remapBlock, remapFields_eq hf type own,
      remapInputs_eq hf inputs fun x hx => inside x (List.mem_append_left _ hx),
      remapBodies_eq hf statements fun x hx => inside x (List.mem_append_right _ hx),
      ← List.singleton_append, changes_leavesOf_append, changes_leavesOf_append, Block.mapFields,
      ← Nat.add_assoc, leavesOf_singleton]
    rfl

theorem remapInputs_eq (hf : t.Substitutes f) : ∀ inputs : List (String × Block),
    (∀ x ∈ Block.inputWalk inputs, SortedByKey x.fields) →
    t.remapInputs inputs = (Block.mapInputs f inputs, changes f (leavesOf (Block.inputWalk inputs)))
  | [], _ => rfl
  | (_, b) :: rest, ordered => by
    rw [Block.inputWalk] at ordered ⊢
    rw [remapInputs, remapBlock_eq hf b fun x hx => ordered x (List.mem_append_left _ hx),
      remapInputs_eq hf rest fun x hx => ordered x (List.mem_append_right _ hx),
      changes_leavesOf_append, Block.mapInputs]

theorem remapBodies_eq (hf : t.Substitutes f) : ∀ statements : List (String × List Block),
    (∀ x ∈ Block.bodyWalk statements, SortedByKey x.fields) →
    t.remapBodies statements
      = (Block.mapBodies f statements, changes f (leavesOf (Block.bodyWalk statements)))
  | [], _ => rfl
  | (_, l) :: rest, ordered => by
    rw [Block.bodyWalk] at ordered ⊢
    rw [remapBodies, remapList_eq hf l fun x hx => ordered x (List.mem_append_left _ hx),
      remapBodies_eq hf rest fun x hx => ordered x (List.mem_append_right _ hx),
      changes_leavesOf_append, Block.mapBodies]

theorem remapList_eq (hf : t.Substitutes f) : ∀ l : List Block,
    (∀ x ∈ Block.listWalk l, SortedByKey x.fields) →
    t.remapList l = (Block.mapList f l, changes f (leavesOf (Block.listWalk l)))
  | [], _ => rfl
  | b :: rest, ordered => by
    rw [Block.listWalk] at ordered ⊢
    rw [remapList, remapBlock_eq hf b fun x hx => ordered x (List.mem_append_left _ hx),
      remapList_eq hf rest fun x hx => ordered x (List.mem_append_right _ hx),
      changes_leavesOf_append, Block.mapList]

end

end

/-- Empty tables give nothing. -/
theorem not_gives_of_isEmpty (h : t.isEmpty = true) {kind : ReferenceKind} {literal new : String} :
    ¬t.Gives kind literal new := by
  simp only [isEmpty, Table.isEmpty, Bool.and_eq_true, List.isEmpty_iff] at h
  obtain ⟨⟨⟨entities, variableNames⟩, sounds⟩, components⟩ := h
  rintro (h | ⟨-, h⟩ | ⟨-, h⟩ | h | h)
  all_goals
    rw [Table.get?] at h
    simp only [entities, variableNames, sounds, components, List.lookup_nil] at h
    cases h

end RemapTables

/-- **Renaming is a simultaneous substitution and nothing else.**  The program that comes out is the
    one that goes in, each value of a field replaced by what `RemapTables.substitute` makes of it,
    which is the text that the field takes, and the value itself if it takes none; and the count is
    the number of the fields whose value is another. -/
theorem Program.remap_eq_mapFields {p : Program} (ordered : p.Ordered) (t : RemapTables) :
    t.Substitutes t.substitute ∧
      p.remap t = (p.mapFields t.substitute, changes t.substitute p.leaves) := by
  have substitutes := t.substitutes_substitute
  refine ⟨substitutes, ?_⟩
  rw [remap]
  cases empty : t.isEmpty with
  | false => exact RemapTables.remapList_eq substitutes p ordered
  | true =>
    have kept : t.substitute = Leaf.value := funext fun l =>
      substitutes.kept l fun new takes => by
        obtain ⟨_, _, _, _, _, gives, _⟩ := takes
        exact RemapTables.not_gives_of_isEmpty empty gives
    have same : p.mapFields Leaf.value = p := Block.mapList_value p
    rw [if_pos rfl, kept, same, changes_of_kept fun l _ => rfl]

/-- Two who are on the stage together, each with an eye on the other. -/
def duet : Program :=
  [.mk "when_touching" [("TARGET", .text "a")] []
      [("DO", [.mk "attach_to" [("TARGET", .text "b")] [] [],
        .mk "play_sound" [("SOUND", .text "a")] [] []])],
    .mk "when_touching" [("TARGET", .text "component:b")] [] []]

/-- Tables that give each the id of the other, and the group of one the name of the other's. -/
def exchange : RemapTables :=
  ⟨⟨[("a", "b"), ("b", "a")]⟩, .empty, .empty, ⟨[("b", "a"), ("a", "b")]⟩⟩

/-- They change places, and the sound stays what it is. -/
theorem remap_duet : duet.Ordered ∧
    (exchange.Substitutes exchange.substitute ∧
      duet.remap exchange
        = (duet.mapFields exchange.substitute, changes exchange.substitute duet.leaves)) ∧
    duet.remap exchange =
      ([.mk "when_touching" [("TARGET", .text "b")] []
          [("DO", [.mk "attach_to" [("TARGET", .text "a")] [] [],
            .mk "play_sound" [("SOUND", .text "a")] [] []])],
        .mk "when_touching" [("TARGET", .text "component:a")] [] []], 3) := by
  have ordered : duet.Ordered := by
    intro b hb
    simp only [duet, Program.walk, Block.listWalk, Block.walk, Block.inputWalk, Block.bodyWalk,
      List.nil_append, List.append_nil, List.cons_append, List.mem_cons, List.not_mem_nil,
      or_false] at hb
    rcases hb with rfl | rfl | rfl | rfl <;> exact List.pairwise_singleton _ _
  exact ⟨ordered, duet.remap_eq_mapFields ordered exchange, by rfl⟩

end BlockStage
