/-
  The store of variables: what is read after what has been done.

  1. **Specification (`laws_of_after`)** — a write is read back, coerced, under every key that stands
     for the variable and by everyone who shares it, and nobody reads anything else than before; a
     write that is refused changes nothing; a copy of local values reads as what it was made from,
     and the two go their own ways from then on.

  2. **Reads** — a read asks for the definition behind a key and then for the value that is stored
     for its id (`find?_eq`).  Definitions are filed under their own ids (`Keyed`), so two keys share
     a value exactly if they stand for one definition (`Keyed.eq_of_id`).

  3. **The crux (`Writes.stored?`)** — of all that can be stored, a write changes one value only.
-/
import BlockStage.Variable

namespace BlockStage

namespace VariableStore

variable {s t : VariableStore}

/-! ## Operations -/

/-- What can be done to a store. -/
inductive Op where
  | define (d : VariableDefinition)
  | addLocals (entity : String)
  | dropLocals (entity : String)
  | copyLocals (source target : String)
  | set (entity key : String) (v : Value)
  | changeBy (entity key : String) (delta : Float)
  | dropAllLocals
  | forgetValues

/-- The store after an operation, also one that is refused. -/
def Op.apply (s : VariableStore) : Op → VariableStore
  | .define d => s.define d
  | .addLocals entity => s.addLocals entity
  | .dropLocals entity => (s.dropLocals entity).2
  | .copyLocals source target => s.copyLocals source target
  | .set entity key v => (s.set entity key v).2
  | .changeBy entity key delta => (s.changeBy entity key delta).2
  | .dropAllLocals => s.dropAllLocals
  | .forgetValues => s.forgetValues

/-- The store after some operations. -/
def after (s : VariableStore) (ops : List Op) : VariableStore := ops.foldl Op.apply s

/-! ## Reading -/

/-- What is read for a definition: the stored value, or else the default. -/
def reading (s : VariableStore) (entity : String) (d : VariableDefinition) : Value :=
  (s.stored? entity d).getD d.defaultValue

theorem find?_eq (s : VariableStore) (entity key : String) :
    s.find? entity key = (s.definition? key).map (s.reading entity) := by
  rw [find?]
  cases s.definition? key <;> rfl

theorem stored?_of_global {d : VariableDefinition} (h : d.scope = .global) (s : VariableStore)
    (entity : String) : s.stored? entity d = s.globals.get? d.id := by
  rw [stored?, h]

theorem stored?_of_local {d : VariableDefinition} (h : d.scope = .local) (s : VariableStore)
    (entity : String) : s.stored? entity d = (s.locals.get? entity).bind fun t => t.get? d.id := by
  rw [stored?, h]
  cases s.locals.get? entity <;> rfl

/-- What stands for a definition and what has no say in it: the values. -/
theorem definition?_congr (definitions : t.definitions = s.definitions) (names : t.names = s.names)
    (key : String) : t.definition? key = s.definition? key := by
  rw [definition?, definition?, resolve?, resolve?, definitions, names]

/-! ## Definitions under their ids -/

/-- Each definition is filed under its own id. -/
def Keyed (s : VariableStore) : Prop := ∀ id d, s.definitions.get? id = some d → d.id = id

theorem definition?_of_get? {id : String} {d : VariableDefinition}
    (h : s.definitions.get? id = some d) : s.definition? id = some d := by
  rw [definition?, resolve?, Table.contains, h, Option.isSome_some, if_pos rfl]
  exact h

namespace Keyed

theorem empty : VariableStore.empty.Keyed := fun _ _ h => by cases h

/-- A definition that a key stands for is found under its id. -/
theorem get?_of_definition? (hs : s.Keyed) {key : String} {d : VariableDefinition}
    (h : s.definition? key = some d) : s.definitions.get? d.id = some d := by
  rw [definition?] at h
  split at h
  · rename_i id _
    rw [hs id d h]
    exact h
  · cases h

/-- Keys that stand for definitions of one id stand for one definition. -/
theorem eq_of_id (hs : s.Keyed) {key other : String} {d d' : VariableDefinition}
    (h : s.definition? key = some d) (h' : s.definition? other = some d') (same : d'.id = d.id) :
    d' = d := by
  have there := hs.get?_of_definition? h'
  rw [same, hs.get?_of_definition? h] at there
  exact (Option.some.inj there).symm

theorem define (hs : s.Keyed) (d : VariableDefinition) : (s.define d).Keyed := by
  intro id d' h
  rw [VariableStore.define, Table.get?_insert] at h
  split at h
  · rename_i same
    rw [← Option.some.inj h]
    exact (eq_of_beq same).symm
  · exact hs id d' h

end Keyed

/-! ## Writing -/

/-- What a write makes of a store. -/
inductive Writes (s : VariableStore) (entity : String) (d : VariableDefinition) (v : Value) :
    VariableStore → Prop where
  | shared (scope : d.scope = .global) :
    Writes s entity d v { s with globals := s.globals.insert d.id (d.coerce v) }
  | own (scope : d.scope = .local) {values : Table String Value}
      (known : s.locals.get? entity = some values) :
    Writes s entity d v
      { s with locals := s.locals.insert entity (values.insert d.id (d.coerce v)) }

/-- A write is carried out or refused, and if it is refused nothing changes. -/
theorem set_cases (s : VariableStore) (entity key : String) (v : Value) :
    ((s.set entity key v).1 = true ∧
      ∃ d, s.definition? key = some d ∧ s.Writes entity d v (s.set entity key v).2) ∨
    ((s.set entity key v).1 = false ∧ (s.set entity key v).2 = s) := by
  rw [set]
  split
  · exact .inr ⟨rfl, rfl⟩
  · rename_i d found
    dsimp only
    split
    · rename_i scope
      exact .inl ⟨rfl, d, found, .shared scope⟩
    · rename_i scope
      split
      · rename_i values known
        exact .inl ⟨rfl, d, found, .own scope known⟩
      · exact .inr ⟨rfl, rfl⟩

/-- Adding writes the sum, to a variable that can be read. -/
theorem changeBy_cases (s : VariableStore) (entity key : String) (delta : Float) :
    (∃ v, s.changeBy entity key delta = s.set entity key v) ∨
      s.changeBy entity key delta = (false, s) := by
  rw [changeBy]
  split
  · exact .inr rfl
  · exact .inl ⟨_, rfl⟩

/-- What a write does: one value is written, or nothing. -/
theorem set_writes (s : VariableStore) (entity key : String) (v : Value) :
    (∃ d w, s.definition? key = some d ∧ s.Writes entity d w (s.set entity key v).2) ∨
      (s.set entity key v).2 = s :=
  (s.set_cases entity key v).imp (fun ⟨_, d, found, h⟩ => ⟨d, v, found, h⟩) And.right

/-- Adding does no more than a write. -/
theorem changeBy_writes (s : VariableStore) (entity key : String) (delta : Float) :
    (∃ d w, s.definition? key = some d ∧ s.Writes entity d w (s.changeBy entity key delta).2) ∨
      (s.changeBy entity key delta).2 = s := by
  rcases s.changeBy_cases entity key delta with ⟨v, same⟩ | same
  · rw [same]
    exact s.set_writes entity key v
  · exact .inr (congrArg Prod.snd same)

namespace Writes

variable {entity : String} {d : VariableDefinition} {v : Value}

theorem definition? (h : s.Writes entity d v t) (key : String) :
    t.definition? key = s.definition? key := by
  cases h <;> exact definition?_congr rfl rfl key

theorem keyed (h : s.Writes entity d v t) (hs : s.Keyed) : t.Keyed := by
  cases h <;> exact hs

/-- **One value is written**: that of the variable, for everyone or for the one entity. -/
theorem stored? (h : s.Writes entity d v t) (reader : String) (d' : VariableDefinition) :
    t.stored? reader d' =
      if d'.id = d.id ∧ d'.scope = d.scope ∧ (d.scope = .global ∨ reader = entity)
      then some (d.coerce v) else s.stored? reader d' := by
  cases h with
  | shared scope =>
    rw [scope]
    cases scope' : d'.scope with
    | global =>
      rw [stored?_of_global scope', stored?_of_global scope', Table.get?_insert]
      simp
    | «local» =>
      rw [stored?_of_local scope', stored?_of_local scope']
      simp
  | own scope known =>
    rw [scope]
    cases scope' : d'.scope with
    | global =>
      rw [stored?_of_global scope', stored?_of_global scope']
      simp
    | «local» =>
      rw [stored?_of_local scope', stored?_of_local scope', Table.get?_insert]
      by_cases same : reader = entity
      · rw [same, if_pos (beq_self_eq_true entity), known, Option.bind_some, Option.bind_some,
          Table.get?_insert]
        simp
      · rw [if_neg fun h => same (eq_of_beq h), if_neg fun h => same (h.2.2.resolve_left nofun)]

/-- The variable that is written reads as the coerced value. -/
theorem reading_self (h : s.Writes entity d v t) {reader : String}
    (shares : d.scope = .global ∨ reader = entity) : t.reading reader d = d.coerce v := by
  rw [reading, h.stored?, if_pos ⟨rfl, rfl, shares⟩]
  rfl

/-- Whoever does not share the variable reads it as before. -/
theorem reading_stranger (h : s.Writes entity d v t) {reader : String}
    (stranger : ¬(d.scope = .global ∨ reader = entity)) (d' : VariableDefinition) :
    t.reading reader d' = s.reading reader d' := by
  rw [reading, h.stored?, if_neg fun same => stranger same.2.2]
  rfl

/-- Other variables read as before. -/
theorem reading_other (h : s.Writes entity d v t) {d' : VariableDefinition}
    (other : ¬(d'.id = d.id ∧ d'.scope = d.scope)) (reader : String) :
    t.reading reader d' = s.reading reader d' := by
  rw [reading, h.stored?, if_neg fun same => other ⟨same.1, same.2.1⟩]
  rfl

end Writes

/-! ## Copies of local values -/

/-- Whoever gets a copy reads as the one it was made from; everyone else as before. -/
theorem stored?_copyLocals (s : VariableStore) (source target reader : String)
    (d : VariableDefinition) :
    (s.copyLocals source target).stored? reader d =
      s.stored? (if reader = target then source else reader) d := by
  cases scope : d.scope with
  | global => rw [stored?_of_global scope, stored?_of_global scope, copyLocals]
  | «local» =>
    rw [stored?_of_local scope, stored?_of_local scope, copyLocals, Table.get?_insert]
    by_cases same : reader = target
    · rw [if_pos (beq_iff_eq.mpr same), if_pos same]
      cases s.locals.get? source <;> rfl
    · rw [if_neg fun h => same (eq_of_beq h), if_neg same]

theorem find?_copyLocals (s : VariableStore) (source target reader key : String) :
    (s.copyLocals source target).find? reader key =
      s.find? (if reader = target then source else reader) key := by
  rw [find?_eq, find?_eq, definition?_congr rfl rfl]
  refine congrArg (Option.map · _) (funext fun d => ?_)
  rw [reading, stored?_copyLocals, reading]

/-! ## Every store -/

/-- Every operation files definitions under their ids. -/
theorem Keyed.apply (hs : s.Keyed) (op : Op) : (op.apply s).Keyed := by
  have written : ∀ {entity key : String} {t : VariableStore},
      (∃ d w, s.definition? key = some d ∧ s.Writes entity d w t) ∨ t = s → t.Keyed := by
    rintro _ _ _ (⟨d, w, -, h⟩ | rfl)
    · exact h.keyed hs
    · exact hs
  cases op with
  | define d => exact hs.define d
  | addLocals entity =>
    rw [Op.apply, VariableStore.addLocals]
    split <;> exact hs
  | set entity key v => exact written (s.set_writes entity key v)
  | changeBy entity key delta => exact written (s.changeBy_writes entity key delta)
  | dropLocals entity => exact hs
  | copyLocals source target => exact hs
  | dropAllLocals => exact hs
  | forgetValues => exact hs

theorem Keyed.after (hs : s.Keyed) (ops : List Op) : (s.after ops).Keyed :=
  List.foldlRecOn ops Op.apply hs fun _ kept op _ => kept.apply op

/-! ## The laws -/

/-- Whoever reads a variable that a write has not reached, or has no share in, reads it as before. -/
theorem find?_set_of_apart (hs : s.Keyed) {entity key reader other : String} {v : Value}
    (apart : ∀ d, s.definition? key = some d →
      ¬(s.definition? other = some d ∧ (d.scope = .global ∨ reader = entity))) :
    (s.set entity key v).2.find? reader other = s.find? reader other := by
  rcases s.set_cases entity key v with ⟨-, d, found, h⟩ | ⟨-, same⟩
  · rw [find?_eq, find?_eq, h.definition?]
    cases asked : s.definition? other with
    | none => rfl
    | some d' =>
      rw [Option.map_some, Option.map_some]
      by_cases shares : d.scope = .global ∨ reader = entity
      · rw [h.reading_other fun same => ?_]
        -- a definition of the same id would be the one that is written
        exact apart d found ⟨asked.trans (congrArg some (hs.eq_of_id found asked same.1)), shares⟩
      · rw [h.reading_stranger shares]
  · rw [same]

theorem find?_changeBy_of_apart (hs : s.Keyed) {entity key reader other : String} {delta : Float}
    (apart : ∀ d, s.definition? key = some d →
      ¬(s.definition? other = some d ∧ (d.scope = .global ∨ reader = entity))) :
    (s.changeBy entity key delta).2.find? reader other = s.find? reader other := by
  rcases s.changeBy_cases entity key delta with ⟨v, same⟩ | same
  · rw [same]
    exact find?_set_of_apart hs apart
  · rw [same]

/-- A write that is carried out is read back, coerced, by everyone who shares the variable. -/
theorem find?_set_self {entity key reader other : String} {v : Value} {d : VariableDefinition}
    (done : (s.set entity key v).1 = true) (found : s.definition? key = some d)
    (same : s.definition? other = some d) (shares : d.scope = .global ∨ reader = entity) :
    (s.set entity key v).2.find? reader other = some (d.coerce v) := by
  rcases s.set_cases entity key v with ⟨-, d', found', h⟩ | ⟨refused, -⟩
  · obtain rfl := Option.some.inj (found.symm.trans found')
    rw [find?_eq, h.definition?, same, Option.map_some, h.reading_self shares]
  · rw [done] at refused
    cases refused

/-- A write that is refused changes nothing. -/
theorem set_of_refused {entity key : String} {v : Value}
    (refused : (s.set entity key v).1 = false) : (s.set entity key v).2 = s := by
  rcases s.set_cases entity key v with ⟨done, -⟩ | ⟨-, same⟩
  · rw [refused] at done
    cases done
  · exact same

theorem changeBy_of_refused {entity key : String} {delta : Float}
    (refused : (s.changeBy entity key delta).1 = false) :
    (s.changeBy entity key delta).2 = s := by
  rcases s.changeBy_cases entity key delta with ⟨v, same⟩ | same
  · rw [same] at refused ⊢
    exact set_of_refused refused
  · rw [same]

/-- A variable of which one side is local is not shared by two. -/
theorem apart_of_local {writer reader key other : String} {d d' : VariableDefinition}
    (distinct : reader ≠ writer) (found : s.definition? key = some d)
    (found' : s.definition? other = some d') (own : d.scope = .local ∨ d'.scope = .local) :
    ∀ e, s.definition? key = some e →
      ¬(s.definition? other = some e ∧ (e.scope = .global ∨ reader = writer)) := by
  rintro e he ⟨he', shares⟩
  obtain rfl := Option.some.inj (found.symm.trans he)
  obtain rfl := Option.some.inj (found'.symm.trans he')
  rw [or_self] at own
  rcases shares with shared | same
  · rw [own] at shared
    cases shared
  · exact distinct same

/-- **The laws of the store**, after whatever has been done to it.  A write that is carried out is
    read back, coerced, under every key that stands for its variable and by everyone who shares it,
    and every other read stays; a write that is refused changes no read.  A copy of local values reads
    as what it was made from, which stays; and whatever is done later, no write to a local of the one
    changes a read from the other, and no write at all a read of its locals. -/
theorem laws_of_after (ops : List Op) :
    let s := VariableStore.empty.after ops
    (∀ entity key v, (s.set entity key v).1 = true → ∃ d, s.definition? key = some d ∧
      ∀ reader other,
        (s.definition? other = some d ∧ (d.scope = .global ∨ reader = entity) →
          (s.set entity key v).2.find? reader other = some (d.coerce v)) ∧
        (¬(s.definition? other = some d ∧ (d.scope = .global ∨ reader = entity)) →
          (s.set entity key v).2.find? reader other = s.find? reader other)) ∧
    (∀ entity key v, (s.set entity key v).1 = false →
      ∀ reader other, (s.set entity key v).2.find? reader other = s.find? reader other) ∧
    (∀ entity key delta, (s.changeBy entity key delta).1 = false →
      ∀ reader other, (s.changeBy entity key delta).2.find? reader other = s.find? reader other) ∧
    ∀ source target, source ≠ target →
      (∀ key, (s.copyLocals source target).find? target key
          = (s.copyLocals source target).find? source key ∧
        (s.copyLocals source target).find? source key = s.find? source key) ∧
      ∀ later writer reader,
        (writer = source ∧ reader = target) ∨ (writer = target ∧ reader = source) →
        let u := (s.copyLocals source target).after later
        ∀ key other d d', u.definition? key = some d → u.definition? other = some d' →
          d.scope = .local ∨ d'.scope = .local →
          (∀ v, (u.set writer key v).2.find? reader other = u.find? reader other) ∧
          ∀ delta, (u.changeBy writer key delta).2.find? reader other = u.find? reader other := by
  intro s
  have keyed : s.Keyed := Keyed.empty.after ops
  refine ⟨?written, ?refused, ?unchanged, ?copied⟩
  case written =>
    intro entity key v done
    rcases s.set_cases entity key v with ⟨-, d, found, -⟩ | ⟨refused, -⟩
    · refine ⟨d, found, fun reader other => ⟨fun ⟨same, shares⟩ => ?_, fun apart => ?_⟩⟩
      · exact find?_set_self done found same shares
      · refine find?_set_of_apart keyed fun d' found' => ?_
        obtain rfl := Option.some.inj (found.symm.trans found')
        exact apart
    · rw [done] at refused
      cases refused
  case refused =>
    intro entity key v refused reader other
    rw [set_of_refused refused]
  case unchanged =>
    intro entity key delta refused reader other
    rw [changeBy_of_refused refused]
  case copied =>
    intro source target other
    refine ⟨fun key => ?_, fun later writer reader pair => ?_⟩
    · rw [find?_copyLocals, find?_copyLocals, if_pos rfl, if_neg other]
      exact ⟨rfl, rfl⟩
    · intro u key asked d d' found found' own
      have keyed : u.Keyed := Keyed.after (s := s.copyLocals source target) keyed later
      have distinct : reader ≠ writer := by
        rcases pair with ⟨rfl, rfl⟩ | ⟨rfl, rfl⟩
        · exact other.symm
        · exact other
      have apart := apart_of_local distinct found found' own
      exact ⟨fun v => find?_set_of_apart keyed apart,
        fun delta => find?_changeBy_of_apart keyed apart⟩

/-- The title of a play, which all of a troupe share. -/
def title : VariableDefinition := ⟨"v-title", "title", .string, .global, .null⟩

/-- The mood of each of them. -/
def mood : VariableDefinition := ⟨"v-mood", "mood", .string, .local, .text "calm"⟩

/-- A troupe with a hero. -/
def troupe : List Op :=
  [.define title, .define mood, .addLocals "hero", .set "hero" "mood" (.text "merry")]

/-- The hero names the play, a ghost can have no mood and no luck, and a twin of the hero turns grim
    while the hero stays merry. -/
theorem laws_troupe :
    let s := VariableStore.empty.after troupe
    let u := (s.copyLocals "hero" "twin").after [.set "twin" "mood" (.text "grim")]
    ((s.set "hero" "title" (.text "Ode")).1 = true ∧
      (s.set "hero" "title" (.text "Ode")).2.find? "ghost" "v-title" = some (.text "Ode") ∧
      (s.set "hero" "title" (.text "Ode")).2.find? "hero" "mood" = s.find? "hero" "mood") ∧
    ((s.set "ghost" "mood" (.text "sad")).1 = false ∧
      (s.set "ghost" "mood" (.text "sad")).2.find? "ghost" "mood" = s.find? "ghost" "mood") ∧
    ((s.changeBy "ghost" "luck" 1).1 = false ∧
      (s.changeBy "ghost" "luck" 1).2.find? "ghost" "luck" = s.find? "ghost" "luck") ∧
    (s.copyLocals "hero" "twin").find? "twin" "mood" = s.find? "hero" "mood" ∧
    (u.set "twin" "mood" (.text "glum")).2.find? "hero" "v-mood" = u.find? "hero" "v-mood" := by
  obtain ⟨written, refused, unchanged, copied⟩ := laws_of_after troupe
  obtain ⟨copy, later⟩ := copied "hero" "twin" (by decide)
  obtain ⟨d, found, reads⟩ := written "hero" "title" (.text "Ode") rfl
  obtain rfl : title = d := Option.some.inj found
  refine ⟨⟨rfl, (reads "ghost" "v-title").1 ⟨rfl, .inl rfl⟩, (reads "hero" "mood").2 ?_⟩,
    ⟨rfl, refused "ghost" "mood" (.text "sad") rfl "ghost" "mood"⟩,
    ⟨rfl, unchanged "ghost" "luck" 1 rfl "ghost" "luck"⟩,
    (copy "mood").1.trans (copy "mood").2, ?_⟩
  · rintro ⟨same, -⟩
    exact absurd (congrArg (Option.map VariableDefinition.id) same) (by decide)
  · exact (later [.set "twin" "mood" (.text "grim")] "twin" "hero" (.inr ⟨rfl, rfl⟩) "mood" "v-mood"
      mood mood rfl rfl (.inl rfl)).1 (.text "glum")

end VariableStore

end BlockStage
