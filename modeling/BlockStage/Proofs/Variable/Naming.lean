/-
  Names of variables: what a key stands for after definitions have been given and replaced.

  1. **Specification (`Named`)** — a key stands for a definition only if it is the id of that
     definition or the name that it bears now; whatever is neither of any definition stands for
     nothing.

  2. **History** — what a store holds is read off the list of definitions that it was given: the
     latest of an id is the current one, and the latest of a name is the one whose id the name
     leads to (`get?_names`).

  3. **What fails (`named_defineAll_iff`)** — the index of names only ever grows.  A definition that
     is replaced under its id leaves its old name behind, unless the name is given again later or is
     an id itself.
-/
import BlockStage.Proofs.Variable.Store
import Mathlib.Data.List.Induction

namespace BlockStage

namespace VariableStore

variable {ds : List VariableDefinition}

/-! ## The specification -/

/-- Keys stand for definitions by the ids and the names that these have now. -/
structure Named (s : VariableStore) : Prop where
  found : ∀ key d, s.definition? key = some d → key = d.id ∨ key = d.name
  unborne : ∀ key, (∀ id d, s.definitions.get? id = some d → key ≠ d.id ∧ key ≠ d.name) →
    s.definition? key = none

/-- Who finds by id or name only finds nothing under anything else. -/
theorem Keyed.named_iff {s : VariableStore} (hs : s.Keyed) :
    s.Named ↔ ∀ key d, s.definition? key = some d → key = d.id ∨ key = d.name := by
  refine ⟨Named.found, fun found => ⟨found, fun key unborne => ?_⟩⟩
  refine Option.eq_none_iff_forall_not_mem.mpr fun d hd => ?_
  have apart := unborne d.id d (hs.get?_of_definition? hd)
  exact (found key d hd).elim apart.1 apart.2

/-! ## History -/

/-- The latest of the definitions that pass a test. -/
def latest? (p : VariableDefinition → Bool) (ds : List VariableDefinition) :
    Option VariableDefinition :=
  ds.reverse.find? p

theorem latest?_append (p : VariableDefinition → Bool) (ds : List VariableDefinition)
    (d : VariableDefinition) :
    latest? p (ds ++ [d]) = if p d = true then some d else latest? p ds := by
  rw [latest?, List.reverse_append, List.reverse_singleton, List.singleton_append, List.find?_cons]
  cases p d <;> rfl

/-- The latest that passes passes, and none after it does. -/
theorem latest?_eq_some_iff {p : VariableDefinition → Bool} {d : VariableDefinition} :
    latest? p ds = some d ↔
      p d = true ∧ ∃ before after, ds = before ++ d :: after ∧ ∀ e ∈ after, ¬p e = true := by
  rw [latest?, List.find?_eq_some_iff_append]
  refine and_congr_right fun _ => ⟨?_, ?_⟩
  · rintro ⟨later, earlier, split, none⟩
    refine ⟨earlier.reverse, later.reverse, ?_, fun e he passes => ?_⟩
    · rw [← List.reverse_reverse ds, split, List.reverse_append, List.reverse_cons,
        List.append_assoc]
      rfl
    · have fails := none e (List.mem_reverse.mp he)
      rw [passes] at fails
      cases fails
  · rintro ⟨before, after, rfl, none⟩
    refine ⟨after.reverse, before.reverse, ?_, fun e he => ?_⟩
    · rw [List.reverse_append, List.reverse_cons, List.append_assoc]
      rfl
    · exact Bool.not_eq_true' _ ▸ Bool.eq_false_iff.mpr (none e (List.mem_reverse.mp he))

theorem mem_of_latest? {p : VariableDefinition → Bool} {d : VariableDefinition}
    (h : latest? p ds = some d) : d ∈ ds :=
  List.mem_reverse.mp (List.mem_of_find?_eq_some h)

/-- None is the latest if none passes. -/
theorem latest?_eq_none_iff {p : VariableDefinition → Bool} :
    latest? p ds = none ↔ ∀ e ∈ ds, ¬p e = true := by
  rw [latest?, List.find?_eq_none]
  exact forall_congr' fun e => imp_congr_left List.mem_reverse

/-- The latest of the whole is the latest of the end, if one passes there. -/
theorem latest?_of_later {p : VariableDefinition → Bool} {before after : List VariableDefinition}
    {d : VariableDefinition} (split : ds = before ++ d :: after) (passes : ∃ e ∈ after, p e = true) :
    ∃ e ∈ after, latest? p ds = some e := by
  have found : (after.reverse.find? p).isSome = true := by
    rw [List.find?_isSome]
    obtain ⟨e, he, hp⟩ := passes
    exact ⟨e, List.mem_reverse.mpr he, hp⟩
  obtain ⟨e, he⟩ := Option.isSome_iff_exists.mp found
  refine ⟨e, List.mem_reverse.mp (List.mem_of_find?_eq_some he), ?_⟩
  rw [latest?, split, List.reverse_append, List.reverse_cons, List.append_assoc, List.find?_append,
    he]
  rfl

/-- The store after the definitions. -/
def defined (ds : List VariableDefinition) : VariableStore := VariableStore.empty.defineAll ds

theorem defined_append (ds : List VariableDefinition) (d : VariableDefinition) :
    defined (ds ++ [d]) = (defined ds).define d := by
  rw [defined, defineAll, List.foldl_append]
  rfl

theorem keyed_defined (ds : List VariableDefinition) : (defined ds).Keyed := by
  induction ds using List.reverseRec with
  | nil => exact Keyed.empty
  | append_singleton ds d ih => exact defined_append ds d ▸ ih.define d

/-- Under an id is the latest definition of that id. -/
theorem get?_definitions (ds : List VariableDefinition) (id : String) :
    (defined ds).definitions.get? id = latest? (fun d => d.id == id) ds := by
  induction ds using List.reverseRec with
  | nil => rfl
  | append_singleton ds d ih =>
    rw [defined_append, define, Table.get?_insert, ih, latest?_append, BEq.comm]

/-- A name leads to the id of the latest definition of that name. -/
theorem get?_names (ds : List VariableDefinition) (name : String) :
    (defined ds).names.get? name = (latest? (fun d => d.name == name) ds).map (·.id) := by
  induction ds using List.reverseRec with
  | nil => rfl
  | append_singleton ds d ih =>
    rw [defined_append, define, Table.get?_insert, ih, latest?_append, BEq.comm]
    split <;> rfl

/-- **What a key stands for**: the definition of that id, and where there is none, the current
    definition of the id that last went by that name. -/
theorem definition?_defined_iff {key : String} {d : VariableDefinition} :
    (defined ds).definition? key = some d ↔
      (key = d.id ∧ latest? (fun e => e.id == key) ds = some d) ∨
        ((∀ e ∈ ds, e.id ≠ key) ∧ ∃ d', latest? (fun e => e.name == key) ds = some d' ∧
          latest? (fun e => e.id == d'.id) ds = some d) := by
  rw [definition?, resolve?, Table.contains, get?_definitions, get?_names]
  cases own : latest? (fun e => e.id == key) ds with
  | some e =>
    have id : e.id = key := eq_of_beq (latest?_eq_some_iff.mp own).1
    have there : ¬∀ e ∈ ds, e.id ≠ key := fun none => none e (mem_of_latest? own) id
    rw [Option.isSome_some, if_pos rfl]
    show (defined ds).definitions.get? key = some d ↔ _
    rw [get?_definitions, own]
    refine ⟨fun same => .inl ⟨?_, same⟩, ?_⟩
    · rw [← Option.some.inj same, id]
    · rintro (⟨-, same⟩ | ⟨none, -⟩)
      · exact same
      · exact absurd none there
  | none =>
    have nobody : ∀ e ∈ ds, e.id ≠ key := fun e he same =>
      latest?_eq_none_iff.mp own e he (beq_iff_eq.mpr same)
    rw [Option.isSome_none, if_neg Bool.false_ne_true]
    cases borne : latest? (fun e => e.name == key) ds with
    | none =>
      refine iff_of_false (fun h => (by cases h)) ?_
      rintro (⟨-, same⟩ | ⟨-, d', same, -⟩) <;> cases same
    | some d' =>
      show (defined ds).definitions.get? d'.id = some d ↔ _
      rw [get?_definitions]
      refine ⟨fun found => .inr ⟨nobody, d', rfl, found⟩, ?_⟩
      rintro (⟨-, same⟩ | ⟨-, e, same, found⟩)
      · cases same
      · exact Option.some.inj same ▸ found

/-! ## Names that are left behind -/

/-- Every definition that is replaced bears a name that is given again later, or that is an id. -/
def Renames (ds : List VariableDefinition) : Prop :=
  ∀ before d after, ds = before ++ d :: after → (∃ e ∈ after, e.id = d.id) →
    (∃ e ∈ after, e.name = d.name) ∨ ∃ e ∈ ds, e.id = d.name

/-- A name that is left behind leads to the definition in its place. -/
theorem renames_of_named (named : (defined ds).Named) : Renames ds := by
  intro before d after split replaced
  by_contra left
  rw [not_or] at left
  obtain ⟨e, he, current⟩ := latest?_of_later (p := fun e => e.id == d.id) split
    (replaced.imp fun e h => ⟨h.1, beq_iff_eq.mpr h.2⟩)
  have last : latest? (fun e => e.name == d.name) ds = some d :=
    latest?_eq_some_iff.mpr ⟨beq_self_eq_true d.name, before, after, split,
      fun e he same => left.1 ⟨e, he, eq_of_beq same⟩⟩
  have nobody : ∀ e ∈ ds, e.id ≠ d.name := fun e he same => left.2 ⟨e, he, same⟩
  have stands := definition?_defined_iff.mpr (.inr ⟨nobody, d, last, current⟩)
  rcases named.found d.name e stands with id | name
  · exact nobody e (mem_of_latest? current) id.symm
  · exact left.1 ⟨e, he, name.symm⟩

/-- A name that is not left behind leads to the definition that bears it. -/
theorem Renames.named (renames : Renames ds) : (defined ds).Named := by
  refine (keyed_defined ds).named_iff.mpr fun key d found => ?_
  rcases definition?_defined_iff.mp found with ⟨id, -⟩ | ⟨nobody, d', last, current⟩
  · exact .inl id
  obtain ⟨name, before, after, split, silent⟩ := latest?_eq_some_iff.mp last
  obtain rfl := eq_of_beq name
  by_cases replaced : ∃ e ∈ after, e.id = d'.id
  · rcases renames before d' after split replaced with ⟨e, he, again⟩ | ⟨e, he, id⟩
    · exact absurd (beq_iff_eq.mpr again) (silent e he)
    · exact absurd id (nobody e he)
  · have own : latest? (fun e => e.id == d'.id) ds = some d' :=
      latest?_eq_some_iff.mpr ⟨beq_self_eq_true d'.id, before, after, split,
        fun e he same => replaced ⟨e, he, eq_of_beq same⟩⟩
    exact .inr (congrArg VariableDefinition.name (Option.some.inj (own.symm.trans current)))

/-- **When the index follows the definitions.**  After any definitions, a key stands for a definition
    only by its id or by a name that one of the same id has been given; and it does so by the
    current name exactly if every definition that was replaced left a name that has been given again
    or is an id. -/
theorem named_defineAll_iff (ds : List VariableDefinition) :
    ((VariableStore.empty.defineAll ds).Named ↔ Renames ds) ∧
      ∀ key d, (VariableStore.empty.defineAll ds).definition? key = some d →
        d ∈ ds ∧ (key = d.id ∨ ∃ d' ∈ ds, d'.id = d.id ∧ key = d'.name) := by
  refine ⟨⟨renames_of_named, Renames.named⟩, fun key d found => ?_⟩
  rcases definition?_defined_iff.mp found with ⟨id, own⟩ | ⟨-, d', last, current⟩
  · exact ⟨mem_of_latest? own, .inl id⟩
  · have name := eq_of_beq (latest?_eq_some_iff.mp last).1
    have id := eq_of_beq (latest?_eq_some_iff.mp current).1
    exact ⟨mem_of_latest? current, .inr ⟨d', mem_of_latest? last, id.symm, name.symm⟩⟩

/-- A variable is given another name. -/
def renamed : List VariableDefinition :=
  [⟨"v", "old", .float, .global, .null⟩, ⟨"v", "new", .float, .global, .null⟩]

/-- The old name, which no definition bears, still stands for the variable. -/
theorem not_named_renamed : ¬(VariableStore.empty.defineAll renamed).Named := fun named => by
  have borne := named.found "old" ⟨"v", "new", .float, .global, .null⟩ (by rfl)
  exact absurd borne (by decide)

end VariableStore

end BlockStage
