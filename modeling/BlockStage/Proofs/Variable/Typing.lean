/-
  Declared types: when a read gives a value of the type that the variable declares.

  1. **Specification (`VariableStore.Typed`)** — whatever a key stands for, every entity reads it as a
     value of the declared type: a number for integers and floats, a text for strings, a truth value
     for booleans.

  2. **Writes** — every value is coerced on its way into the store, and so is a default on its way
     out (`admits_coerceTo`, `admits_defaultValue`).  So a read can go wrong by a stored value only
     (`typed_iff`), and only by one that was stored under another definition of the same id.

  3. **The gap** — a new definition takes the place of an old one and leaves the values.  It does harm
     exactly if someone has a value under its id, in its scope, that it does not admit (`Clashes`).

  4. **Runs** — so all reads are typed at every moment exactly if no definition ever clashes, and in
     any case a value is of a type that its variable has been declared with (`typed_run_iff`).
-/
import BlockStage.Proofs.Run
import BlockStage.Proofs.Table
import BlockStage.Proofs.Variable.Store

namespace BlockStage

/-! ## Values of a type -/

namespace VariableType

/-- Is a value of a declared type? -/
def admits : VariableType → Value → Bool
  | .integer, .number _ => true
  | .float, .number _ => true
  | .string, .text _ => true
  | .boolean, .bool _ => true
  | _, _ => false

theorem admits_coerceTo (type : VariableType) (v : Value) :
    type.admits (VariableDefinition.coerceTo type v) = true := by
  cases type <;> rfl

theorem admits_defaultValue (d : VariableDefinition) : d.type.admits d.defaultValue = true := by
  obtain ⟨id, name, type, scope, default⟩ := d
  cases default with
  | null => cases type <;> rfl
  | bool flag => exact admits_coerceTo type (.bool flag)
  | number n => exact admits_coerceTo type (.number n)
  | text t => exact admits_coerceTo type (.text t)

end VariableType

namespace VariableStore

variable {s : VariableStore}

/-- Every read gives a value of the type that its definition declares. -/
def Typed (s : VariableStore) : Prop :=
  ∀ entity key d v, s.definition? key = some d → s.find? entity key = some v →
    d.type.admits v = true

/-- Someone has a value under the id of a definition, in its scope, that it does not admit. -/
def Clashes (s : VariableStore) (d : VariableDefinition) : Prop :=
  ∃ entity v, s.stored? entity d = some v ∧ d.type.admits v = false

/-- Only stored values can be of a wrong type. -/
theorem typed_iff : s.Typed ↔ ∀ key d, s.definition? key = some d → ¬s.Clashes d := by
  constructor
  · rintro typed key d found ⟨entity, v, stored, wrong⟩
    have read : s.find? entity key = some v := by
      rw [find?_eq, found, Option.map_some, reading, stored]
      rfl
    rw [typed entity key d v found read] at wrong
    cases wrong
  · intro sound entity key d v found read
    rw [find?_eq, found, Option.map_some, reading] at read
    obtain rfl := Option.some.inj read
    cases stored : s.stored? entity d with
    | none => exact VariableType.admits_defaultValue d
    | some v =>
      cases admitted : d.type.admits v with
      | true => exact admitted
      | false => exact absurd ⟨entity, v, stored, admitted⟩ (sound key d found)

/-! ## Values that are moved or forgotten -/

/-- The definitions are the same, and every value was stored for someone before. -/
structure Inherits (s t : VariableStore) : Prop where
  definitions : t.definitions = s.definitions
  names : t.names = s.names
  stored : ∀ entity d v, t.stored? entity d = some v → ∃ other, s.stored? other d = some v

namespace Inherits

theorem refl (s : VariableStore) : Inherits s s :=
  ⟨rfl, rfl, fun reader _ _ stored => ⟨reader, stored⟩⟩

/-- Global values stay or go, and each local map is one that was there before, or is empty. -/
theorem of_maps {s t : VariableStore} (definitions : t.definitions = s.definitions)
    (names : t.names = s.names)
    (globals : ∀ id v, t.globals.get? id = some v → s.globals.get? id = some v)
    (locals : ∀ entity values, t.locals.get? entity = some values →
      values = .empty ∨ ∃ other, s.locals.get? other = some values) :
    Inherits s t := by
  refine ⟨definitions, names, fun entity d v stored => ?_⟩
  cases scope : d.scope with
  | global =>
    rw [stored?_of_global scope] at stored
    exact ⟨entity, (stored?_of_global scope s entity).trans (globals d.id v stored)⟩
  | «local» =>
    rw [stored?_of_local scope] at stored
    obtain ⟨values, known, found⟩ := Option.bind_eq_some_iff.mp stored
    rcases locals entity values known with rfl | ⟨other, known⟩
    · cases found
    · refine ⟨other, ?_⟩
      rw [stored?_of_local scope, known, Option.bind_some]
      exact found

theorem addLocals (s : VariableStore) (entity : String) : Inherits s (s.addLocals entity) := by
  rw [VariableStore.addLocals]
  split
  · exact .refl s
  · refine .of_maps rfl rfl (fun _ _ found => found) fun reader values known => ?_
    rw [Table.get?_insert] at known
    split at known
    · exact .inl (Option.some.inj known).symm
    · exact .inr ⟨reader, known⟩

theorem dropLocals (s : VariableStore) (entity : String) : Inherits s (s.dropLocals entity).2 := by
  refine .of_maps rfl rfl (fun _ _ found => found) fun reader values known => .inr ⟨reader, ?_⟩
  rw [VariableStore.dropLocals, Table.get?_erase] at known
  split at known
  · cases known
  · exact known

theorem copyLocals (s : VariableStore) (source target : String) :
    Inherits s (s.copyLocals source target) :=
  ⟨rfl, rfl, fun reader d _ stored =>
    ⟨_, (stored?_copyLocals s source target reader d).symm.trans stored⟩⟩

theorem dropAllLocals (s : VariableStore) : Inherits s s.dropAllLocals :=
  .of_maps rfl rfl (fun _ _ found => found) fun _ _ known => by cases known

theorem forgetValues (s : VariableStore) : Inherits s s.forgetValues := by
  refine .of_maps rfl rfl (fun _ _ found => by cases found) fun reader values known => .inl ?_
  rw [VariableStore.forgetValues, Table.get?_map s.locals.entries fun _ => .empty] at known
  obtain ⟨-, -, same⟩ := Option.map_eq_some_iff.mp known
  exact same.symm

end Inherits

/-- **What operations do** that bring no definition: values are moved or forgotten, or one value is
    written. -/
theorem Op.apply_cases (s : VariableStore) {op : Op} (brings : ∀ d, op ≠ .define d) :
    Inherits s (op.apply s) ∨
      ∃ entity key d v, s.definition? key = some d ∧ s.Writes entity d v (op.apply s) := by
  have written : ∀ {entity key : String} {t : VariableStore},
      (∃ d w, s.definition? key = some d ∧ s.Writes entity d w t) ∨ t = s →
        Inherits s t ∨ ∃ writer name d w, s.definition? name = some d ∧ s.Writes writer d w t := by
    rintro entity key t (⟨d, w, found, h⟩ | rfl)
    · exact .inr ⟨entity, key, d, w, found, h⟩
    · exact .inl (.refl t)
  cases op with
  | define d => exact absurd rfl (brings d)
  | addLocals entity => exact .inl (.addLocals s entity)
  | dropLocals entity => exact .inl (.dropLocals s entity)
  | copyLocals source target => exact .inl (.copyLocals s source target)
  | set entity key v => exact written (s.set_writes entity key v)
  | changeBy entity key delta => exact written (s.changeBy_writes entity key delta)
  | dropAllLocals => exact .inl (.dropAllLocals s)
  | forgetValues => exact .inl (.forgetValues s)

/-! ## Steps -/

theorem definition?_define_self (s : VariableStore) (d : VariableDefinition) :
    (s.define d).definition? d.id = some d := by
  refine definition?_of_get? ?_
  rw [define, Table.get?_insert, if_pos (beq_self_eq_true d.id)]

/-- A definition that a key stands for is the new one, or was there before. -/
theorem definition?_define (hs : s.Keyed) {d d' : VariableDefinition} {key : String}
    (found : (s.define d).definition? key = some d') : d' = d ∨ s.definition? d'.id = some d' := by
  have filed := (hs.define d).get?_of_definition? found
  rw [define, Table.get?_insert] at filed
  split at filed
  · exact .inl (Option.some.inj filed).symm
  · exact .inr (definition?_of_get? filed)

/-- **Definitions**: all reads stay typed exactly if the new definition does not clash. -/
theorem typed_define_iff (hs : s.Keyed) (typed : s.Typed) (d : VariableDefinition) :
    (s.define d).Typed ↔ ¬s.Clashes d := by
  rw [typed_iff]
  constructor
  · exact fun sound => sound d.id d (s.definition?_define_self d)
  · intro fits key d' found
    rcases definition?_define hs found with rfl | old
    · exact fits
    · exact typed_iff.mp typed d'.id d' old

theorem Typed.inherits {t : VariableStore} (typed : s.Typed) (h : Inherits s t) : t.Typed := by
  refine typed_iff.mpr fun key d found ⟨entity, v, stored, wrong⟩ => ?_
  rw [definition?_congr h.definitions h.names] at found
  obtain ⟨other, stored⟩ := h.stored entity d v stored
  exact typed_iff.mp typed key d found ⟨other, v, stored, wrong⟩

/-- A write stores a value of the type of its variable. -/
theorem Typed.writes {t : VariableStore} {entity : String} {d : VariableDefinition} {v : Value}
    {key : String} (hs : s.Keyed) (typed : s.Typed) (found : s.definition? key = some d)
    (h : s.Writes entity d v t) : t.Typed := by
  refine typed_iff.mpr fun other d' found' ⟨reader, w, stored, wrong⟩ => ?_
  rw [h.definition?] at found'
  rw [h.stored?] at stored
  split at stored
  · rename_i same
    obtain rfl := hs.eq_of_id found found' same.1
    rw [← Option.some.inj stored, VariableDefinition.coerce, VariableType.admits_coerceTo] at wrong
    cases wrong
  · exact typed_iff.mp typed other d' found' ⟨reader, w, stored, wrong⟩

/-- The operation brings a definition that clashes. -/
def SlipsOn (s : VariableStore) (op : Op) : Prop := ∃ d, op = .define d ∧ s.Clashes d

/-- **The step lemma**: reads stay typed exactly if no definition clashes. -/
theorem typed_apply_iff (hs : s.Keyed) (typed : s.Typed) (op : Op) :
    (op.apply s).Typed ↔ ¬s.SlipsOn op := by
  by_cases brings : ∃ d, op = .define d
  · obtain ⟨d, rfl⟩ := brings
    refine (typed_define_iff hs typed d).trans (not_congr ⟨fun clash => ⟨d, rfl, clash⟩, ?_⟩)
    rintro ⟨d', same, clash⟩
    cases same
    exact clash
  · refine iff_of_true ?_ fun slips => brings (slips.imp fun _ => And.left)
    rcases Op.apply_cases s (not_exists.mp brings) with h | ⟨_, _, _, _, found, h⟩
    · exact typed.inherits h
    · exact typed.writes hs found h

/-! ## Where values come from -/

/-- All definitions are among some, and every value is of a type that its variable has among them. -/
structure Traced (given : VariableDefinition → Prop) (s : VariableStore) : Prop where
  defined : ∀ key d, s.definition? key = some d → given d
  stored : ∀ entity d v, s.stored? entity d = some v →
    ∃ d', given d' ∧ d'.id = d.id ∧ d'.type.admits v = true

namespace Traced

variable {given : VariableDefinition → Prop}

theorem empty (given : VariableDefinition → Prop) : VariableStore.empty.Traced given := by
  refine ⟨fun key d found => (by cases found), fun entity d v stored => ?_⟩
  cases scope : d.scope with
  | global =>
    rw [stored?_of_global scope] at stored
    cases stored
  | «local» =>
    rw [stored?_of_local scope] at stored
    cases stored

theorem inherits (h : s.Traced given) {t : VariableStore} (ht : Inherits s t) : t.Traced given := by
  refine ⟨fun key d found => ?_, fun entity d v stored => ?_⟩
  · rw [definition?_congr ht.definitions ht.names] at found
    exact h.defined key d found
  · obtain ⟨other, stored⟩ := ht.stored entity d v stored
    exact h.stored other d v stored

theorem define (h : s.Traced given) (hs : s.Keyed) {d : VariableDefinition} (hd : given d) :
    (s.define d).Traced given := by
  refine ⟨fun key d' found => ?_, fun entity d' v stored => h.stored entity d' v stored⟩
  rcases definition?_define hs found with rfl | old
  · exact hd
  · exact h.defined d'.id d' old

theorem writes (h : s.Traced given) {t : VariableStore} {entity key : String}
    {d : VariableDefinition} {v : Value} (found : s.definition? key = some d)
    (w : s.Writes entity d v t) : t.Traced given := by
  refine ⟨fun other d' found' => h.defined other d' ((w.definition? other).symm.trans found'),
    fun reader d' u stored => ?_⟩
  rw [w.stored?] at stored
  split at stored
  · rename_i same
    refine ⟨d, h.defined key d found, same.1.symm, ?_⟩
    rw [← Option.some.inj stored]
    exact VariableType.admits_coerceTo d.type v
  · exact h.stored reader d' u stored

/-- Nothing is stored but what has been coerced to the type of a definition. -/
theorem apply (h : s.Traced given) (hs : s.Keyed) {op : Op}
    (brings : ∀ d, op = .define d → given d) : (op.apply s).Traced given := by
  by_cases defines : ∃ d, op = .define d
  · obtain ⟨d, rfl⟩ := defines
    exact h.define hs (brings d rfl)
  · rcases Op.apply_cases s (not_exists.mp defines) with ht | ⟨_, _, _, _, found, ht⟩
    · exact h.inherits ht
    · exact h.writes found ht

/-- What is read is of a type that the variable has been declared with. -/
theorem find? (h : s.Traced given) {entity key : String} {d : VariableDefinition} {v : Value}
    (found : s.definition? key = some d) (read : s.find? entity key = some v) :
    ∃ d', given d' ∧ d'.id = d.id ∧ d'.type.admits v = true := by
  rw [find?_eq, found, Option.map_some, reading] at read
  obtain rfl := Option.some.inj read
  cases stored : s.stored? entity d with
  | none => exact ⟨d, h.defined key d found, rfl, VariableType.admits_defaultValue d⟩
  | some v => exact h.stored entity d v stored

end Traced

theorem traced_after (ops : List Op) :
    (VariableStore.empty.after ops).Traced fun d => .define d ∈ ops := by
  have kept := List.foldlRecOn ops Op.apply
    (motive := fun s => s.Keyed ∧ s.Traced fun d => .define d ∈ ops)
    ⟨Keyed.empty, Traced.empty _⟩ fun s ⟨keyed, traced⟩ op there =>
      ⟨keyed.apply op, traced.apply keyed fun d same => same ▸ there⟩
  exact kept.2

/-! ## Runs -/

/-- **When reads are typed.**  Whatever is done to a store, at every moment all reads give values of
    the declared types, exactly if no definition is ever put in the place of another one while someone
    has a value in its scope that it does not admit.  In any case what is read is of a type that the
    variable has been declared with. -/
theorem typed_run_iff (ops : List Op) :
    ((∀ done, done <+: ops → (VariableStore.empty.after done).Typed) ↔
      ∀ done d, done ++ [.define d] <+: ops → ¬(VariableStore.empty.after done).Clashes d) ∧
    ∀ entity key d v, (VariableStore.empty.after ops).definition? key = some d →
      (VariableStore.empty.after ops).find? entity key = some v →
      ∃ d', .define d' ∈ ops ∧ d'.id = d.id ∧ d'.type.admits v = true := by
  refine ⟨?_, fun entity key d v found read => (traced_after ops).find? found read⟩
  have nothing : VariableStore.empty.Typed := fun _ _ _ _ found => by cases found
  have step {s : VariableStore} (h : s.Keyed ∧ s.Typed) (op : Op) :
      (op.apply s).Keyed ∧ (op.apply s).Typed ↔ ¬s.SlipsOn op :=
    ⟨fun now => (typed_apply_iff h.1 h.2 op).mp now.2,
      fun sound => ⟨h.1.apply op, (typed_apply_iff h.1 h.2 op).mpr sound⟩⟩
  have always := always_foldl_iff (P := fun s => s.Keyed ∧ s.Typed) (f := Op.apply) step
    ⟨Keyed.empty, nothing⟩ ops
  constructor
  · intro typed done d before clash
    exact always.mp (fun done before => ⟨Keyed.empty.after done, typed done before⟩) done
      (.define d) before ⟨d, rfl, clash⟩
  · intro sound done before
    refine (always.mpr (fun done op before => ?_) done before).2
    rintro ⟨d, rfl, clash⟩
    exact sound done d before clash

/-- The title becomes a yes or no after it has been written as a text. -/
def recast : List Op :=
  [.define title, .set "hero" "title" (.text "Ode"), .define { title with type := .boolean }]

/-- A truth value is declared, but a text is read. -/
theorem not_typed_recast :
    ¬∀ done, done <+: recast → (VariableStore.empty.after done).Typed := by
  intro typed
  have read := typed recast (List.prefix_refl recast) "hero" "title"
    { title with type := .boolean } (.text "Ode") rfl rfl
  cases read

end VariableStore

end BlockStage
