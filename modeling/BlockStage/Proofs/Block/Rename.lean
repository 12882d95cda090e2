/-
  Renaming what blocks sense: before the target is read from its field, or after.

  1. **Specification** — a target is renamed by the tables (`Target.renamed`): an entity's id by one,
     the name of a group by another.  The field of a block in a program is renamed as a text
     (`RemapTables.rewrite`).  Either way the block should sense the same.

  2. **The crux (`RemapTables.Clean.parse?_rewrite`)** — for a text that is trimmed, other than the
     mark of a group without a name, it does, as long as the new ids are read as what they are
     (`Clean`).

  3. **What fails** — texts are looked up in the tables with the blanks around them, and targets are
     read without.  So it depends on the tables whether a text with blanks becomes what its trimmed
     text would become (`RemapTables.Overlooks`), and just then both ways agree.
-/
import BlockStage.Block.Remap
import BlockStage.Proofs.Table
import BlockStage.Proofs.Trimming

namespace BlockStage

/-! ## Walks through programs -/

namespace Block

mutual

/-- A block and every block in it: itself, then its inputs, then its bodies. -/
def walk : Block → List Block
  | .mk t f i s => .mk t f i s :: (inputWalk i ++ bodyWalk s)

/-- The blocks in value slots. -/
def inputWalk : List (String × Block) → List Block
  | [] => []
  | (_, b) :: rest => walk b ++ inputWalk rest

/-- The blocks in bodies. -/
def bodyWalk : List (String × List Block) → List Block
  | [] => []
  | (_, l) :: rest => listWalk l ++ bodyWalk rest

/-- The blocks in a list. -/
def listWalk : List Block → List Block
  | [] => []
  | b :: rest => walk b ++ listWalk rest

end

end Block

/-- All blocks of a program in the order of a walk. -/
def Program.walk (p : Program) : List Block := Block.listWalk p

namespace RemapTables

variable (t : RemapTables)

/-- A block as it is after renaming. -/
def renamed (b : Block) : Block := (t.remapBlock b).1

mutual

/-- Renaming keeps the shape of a block, and renames each block in it on its own. -/
theorem walk_remapBlock : ∀ b : Block, (t.remapBlock b).1.walk = b.walk.map t.renamed
  | .mk type fields inputs statements => by
    rw [remapBlock, Block.walk, Block.walk, List.map_cons, List.map_append,
      walk_remapInputs inputs, walk_remapBodies statements, renamed, remapBlock]

theorem walk_remapInputs : ∀ inputs : List (String × Block),
    Block.inputWalk (t.remapInputs inputs).1 = (Block.inputWalk inputs).map t.renamed
  | [] => by rw [remapInputs, Block.inputWalk, List.map_nil]
  | (_, b) :: rest => by
    rw [remapInputs, Block.inputWalk, Block.inputWalk, List.map_append, walk_remapBlock b,
      walk_remapInputs rest]

theorem walk_remapBodies : ∀ statements : List (String × List Block),
    Block.bodyWalk (t.remapBodies statements).1 = (Block.bodyWalk statements).map t.renamed
  | [] => by rw [remapBodies, Block.bodyWalk, List.map_nil]
  | (_, l) :: rest => by
    rw [remapBodies, Block.bodyWalk, Block.bodyWalk, List.map_append, walk_remapList l,
      walk_remapBodies rest]

theorem walk_remapList : ∀ l : List Block,
    Block.listWalk (t.remapList l).1 = (Block.listWalk l).map t.renamed
  | [] => by rw [remapList, Block.listWalk, List.map_nil]
  | b :: rest => by
    rw [remapList, Block.listWalk, Block.listWalk, List.map_append, walk_remapBlock b,
      walk_remapList rest]

end

end RemapTables

/-! ## Specification -/

/-- Has a block of a type a field that names a target? -/
def Senses (type field : String) : Prop :=
  ∃ kind, BlockKind.parse? type = some kind ∧
    referenceField? kind = some ⟨kind, field, .sensingTarget⟩

/-- An id that is read as what it is: it has no blanks at its ends, is no reserved token, and does
    not begin like a group. -/
structure CleanId (id : String) : Prop where
  trimmed : trimText id = id
  nonempty : id ≠ ""
  free : Token.isReserved id = false
  plain : Token.afterComponent? id = none

namespace RemapTables

/-- Tables in which the new ids of entities and groups are read as what they are. -/
structure Clean (t : RemapTables) : Prop where
  entities : ∀ e ∈ t.entities.entries, CleanId e.2
  components : ∀ e ∈ t.components.entries, CleanId e.2

/-- The new id of an entity.  Reserved tokens stand for no entity of a project, and stay. -/
def entity (t : RemapTables) (id : String) : String :=
  if Token.isReserved id then id else (t.entities.get? id).getD id

/-- The new name of a group. -/
def component (t : RemapTables) (name : String) : String := (t.components.get? name).getD name

/-- What becomes of the text of a field that names a target. -/
def rewrite (t : RemapTables) (text : String) : String :=
  (t.rename? .sensingTarget text).getD text

/-- Blanks around a text make no difference to what becomes of it, and the mark of a group without
    a name is left alone. -/
def Overlooks (t : RemapTables) (text : String) : Prop :=
  if trimText text = Token.component then t.rename? .sensingTarget text = none
  else trimText (t.rewrite text) = t.rewrite (trimText text)

end RemapTables

/-- A target that is renamed by tables. -/
def Target.renamed (t : RemapTables) : Target → Target
  | .entity id => .entity (t.entity id)
  | .component name => .component (t.component name)
  | other => other

/-! ## Reading -/

/-- What stands after a leading word. -/
theorem Key.after?_eq_some_iff {word cs r : List Char} :
    after? word cs = some r ↔ cs = word ++ r := by
  rw [after?]
  constructor
  · intro h
    split_ifs at h with front
    obtain ⟨rest, rfl⟩ := List.isPrefixOf_iff_prefix.mp front
    rw [← Option.some.inj h, List.drop_left]
  · rintro rfl
    rw [if_pos (List.isPrefixOf_iff_prefix.mpr (List.prefix_append _ _)), List.drop_left]

namespace Token

theorem isReserved_trimText (s : String) : isReserved (trimText s) = isReserved s := by
  rw [isReserved, trimText_trimText]
  rfl

theorem afterComponent?_eq_some_iff {s name : String} :
    afterComponent? s = some name ↔ s = component ++ name := by
  rw [afterComponent?, Option.map_eq_some_iff, ← String.toList_inj, String.toList_append]
  constructor
  · rintro ⟨rest, found, rfl⟩
    rw [String.toList_ofList]
    exact Key.after?_eq_some_iff.mp found
  · intro whole
    exact ⟨_, Key.after?_eq_some_iff.mpr whole, String.ofList_toList⟩

theorem afterComponent?_component (s : String) : afterComponent? (component ++ s) = some s :=
  afterComponent?_eq_some_iff.mpr rfl

theorem eq_of_afterComponent? {s name : String} (h : afterComponent? s = some name) :
    s = component ++ name :=
  afterComponent?_eq_some_iff.mp h

/-- No reserved token begins like a group. -/
theorem afterComponent?_reserved {s : String} (h : isReserved s = true) :
    afterComponent? (trimText s) = none := by
  have listed := List.contains_iff_mem.mp h
  simp only [List.mem_cons, List.not_mem_nil, or_false] at listed
  rcases listed with h | h | h | h | h | h | h <;> rw [h] <;> decide +kernel

/-- The mark of a group in front of a name. -/
theorem trimText_component {name : String} (id : CleanId name) :
    trimText (component ++ name) = component ++ name := by
  have nonempty : name.toList ≠ [] := fun h => id.nonempty (String.toList_eq_nil_iff.mp h)
  have first : component.toList.head? = .some 'c' := rfl
  have there : component.toList ≠ [] := List.cons_ne_nil _ _
  have visible : ∀ c ∈ component.toList.head?, isBlank c = false := by
    rw [first]
    rintro c ⟨⟩
    rfl
  rw [trimText_eq_self_iff, String.toList_append]
  exact trimChars_append visible there (trimText_eq_self_iff.mp id.trimmed) nonempty

theorem isReserved_component {name : String}
    (trimmed : trimText (component ++ name) = component ++ name) :
    isReserved (component ++ name) = false := by
  refine Bool.eq_false_iff.mpr fun reserved => ?_
  have none := afterComponent?_reserved reserved
  rw [trimmed, afterComponent?_component] at none
  cases none

end Token

namespace Target

theorem parse?_trimText (s : String) : parse? (trimText s) = parse? s := by
  rw [parse?, trimText_trimText]
  rfl

/-- What is no reserved token names a group or an entity. -/
theorem parse?_of_free {s : String} (free : Token.isReserved s = false) :
    parse? s = match Token.afterComponent? (trimText s) with
      | some name => if name = "" then none else some (.component name)
      | none => some (.entity (trimText s)) := by
  have apart : trimText s ≠ "" ∧ trimText s ≠ Token.edge ∧ trimText s ≠ Token.ground ∧
      trimText s ≠ Token.pointer ∧ trimText s ≠ Token.mouse ∧ trimText s ≠ Token.myClones := by
    rw [Token.isReserved, ← Bool.not_eq_true, List.contains_iff_mem] at free
    simp only [List.mem_cons, List.not_mem_nil, or_false, not_or] at free
    exact ⟨free.1, free.2.1, free.2.2.1, free.2.2.2.1, free.2.2.2.2.1, free.2.2.2.2.2.1⟩
  obtain ⟨blank, edge, ground, pointer, mouse, myClones⟩ := apart
  cases group : Token.afterComponent? (trimText s) <;>
    simp only [parse?, group, blank, edge, ground, pointer, mouse, myClones, if_false, decide_false,
      Bool.or_self, Bool.false_eq_true]

/-- It does so unless it is the mark of a group without a name. -/
theorem exists_parse? {s : String} (free : Token.isReserved s = false)
    (named : trimText s ≠ Token.component) : ∃ x, parse? s = some x := by
  rw [parse?_of_free free]
  split
  · rename_i name after
    have some : name ≠ "" := fun none => named (by
      rw [Token.eq_of_afterComponent? after, none, String.append_empty])
    exact ⟨_, if_neg some⟩
  · exact ⟨_, rfl⟩

/-- A target that is read from a text other than a reserved token is written as that text. -/
theorem token_of_parse? {s : String} {x : Target} (free : Token.isReserved s = false)
    (h : parse? s = some x) : x.token = trimText s := by
  rw [parse?_of_free free] at h
  split at h
  · rename_i name after
    split at h
    · cases h
    · obtain rfl := Option.some.inj h
      exact (Token.eq_of_afterComponent? after).symm
  · obtain rfl := Option.some.inj h
    rfl

/-- The id of an entity and the name of a group are what is written. -/
theorem written_of_parse? {s : String} {x : Target} (h : parse? s = some x) :
    (∀ id, x = .entity id → id = trimText s) ∧
      ∀ name, x = .component name → Token.afterComponent? (trimText s) = some name := by
  rw [parse?] at h
  split_ifs at h
  case neg =>
    split at h
    · rename_i name after
      split_ifs at h
      obtain rfl := Option.some.inj h
      refine ⟨fun id hid => ?_, fun name' hname => ?_⟩
      · cases hid
      · obtain rfl := component.inj hname
        exact after
    · obtain rfl := Option.some.inj h
      refine ⟨fun id hid => (entity.inj hid).symm, fun name hname => ?_⟩
      cases hname
  all_goals
    obtain rfl := Option.some.inj h
    refine ⟨fun id hid => ?_, fun name hname => ?_⟩
    · cases hid
    · cases hname

/-- Reserved tokens are renamed by no tables. -/
theorem renamed_of_reserved (t : RemapTables) {s : String} (h : Token.isReserved s = true) :
    (parse? s).map (renamed t) = parse? s := by
  cases hx : parse? s with
  | none => rfl
  | some x =>
    obtain ⟨isEntity, isGroup⟩ := written_of_parse? hx
    rw [Option.map_some]
    cases x with
    | entity id =>
      have reserved : Token.isReserved id = true := by
        rw [isEntity id rfl, Token.isReserved_trimText, h]
      have kept : t.entity id = id := if_pos reserved
      rw [renamed, kept]
    | component name =>
      have none := Token.afterComponent?_reserved h
      rw [isGroup name rfl] at none
      cases none
    | edge | ground | pointer | myClones => rfl

theorem parse?_component {name : String} (some : name ≠ "")
    (trimmed : trimText (Token.component ++ name) = Token.component ++ name) :
    parse? (Token.component ++ name) = .some (.component name) := by
  rw [parse?_of_free (Token.isReserved_component trimmed), trimmed, Token.afterComponent?_component]
  exact if_neg some

theorem parse?_entity {id : String} (h : CleanId id) : parse? id = some (.entity id) := by
  rw [parse?_of_free h.free, h.trimmed, h.plain]

end Target

/-! ## Renaming before reading, and after -/

namespace RemapTables

variable {t : RemapTables} {s : String}

theorem rename?_of_reserved (h : Token.isReserved s = true) (kind : ReferenceKind) :
    t.rename? kind s = none := if_pos h

/-- A text that is no reserved token becomes what the tables say. -/
theorem rename?_of_free (free : Token.isReserved s = false) :
    t.rename? .sensingTarget s = match Token.afterComponent? s with
      | some name => (t.components.get? name).map fun new => Token.component ++ new
      | none => t.entities.get? s := by
  rw [rename?, free]
  rfl

theorem rewrite_of_none (h : t.rename? .sensingTarget s = none) : t.rewrite s = s := by
  rw [rewrite, h]
  rfl

theorem rewrite_of_some {new : String} (h : t.rename? .sensingTarget s = some new) :
    t.rewrite s = new := by
  rw [rewrite, h]
  rfl

/-- What a text becomes is trimmed and no reserved token, if the text is. -/
theorem Clean.rewrite_cases (ht : t.Clean) (free : Token.isReserved s = false) :
    t.rewrite s = s ∧ t.rename? .sensingTarget s = none ∨
      Token.isReserved (t.rewrite s) = false ∧ trimText (t.rewrite s) = t.rewrite s ∧
        ∃ x, Target.parse? (t.rewrite s) = some x := by
  cases h : t.rename? .sensingTarget s with
  | none => exact .inl ⟨rewrite_of_none h, rfl⟩
  | some new =>
    rw [rewrite_of_some h]
    right
    rw [rename?_of_free free] at h
    split at h
    · obtain ⟨name, found, rfl⟩ := Option.map_eq_some_iff.mp h
      have id := ht.components _ (Table.mem_of_get? found)
      have trimmed := Token.trimText_component id
      exact ⟨Token.isReserved_component trimmed, trimmed, _,
        Target.parse?_component id.nonempty trimmed⟩
    · have id := ht.entities _ (Table.mem_of_get? h)
      exact ⟨id.free, id.trimmed, _, Target.parse?_entity id⟩

theorem Clean.rewrite_free (ht : t.Clean) (free : Token.isReserved s = false) :
    Token.isReserved (t.rewrite s) = false := by
  rcases ht.rewrite_cases free with ⟨same, -⟩ | ⟨free', -⟩
  · rw [same, free]
  · exact free'

/-- For a trimmed text that names something, renaming before reading is renaming after. -/
theorem Clean.parse?_rewrite (ht : t.Clean) (trimmed : trimText s = s)
    (named : s ≠ Token.component) :
    Target.parse? (t.rewrite s) = (Target.parse? s).map (Target.renamed t) := by
  cases free : Token.isReserved s with
  | true =>
    rw [rewrite_of_none (rename?_of_reserved free _), Target.renamed_of_reserved t free]
  | false =>
    have looked := rename?_of_free (t := t) free
    have read := Target.parse?_of_free free
    rw [trimmed] at read
    cases after : Token.afterComponent? s with
    | some name =>
      have whole : s = Token.component ++ name := Token.eq_of_afterComponent? after
      have some : name ≠ "" := fun none => named (by rw [whole, none, String.append_empty])
      rw [after] at looked read
      dsimp only at looked read
      rw [if_neg some] at read
      rw [read]
      cases found : t.components.get? name with
      | none =>
        have kept : t.component name = name := by rw [component, found]; rfl
        rw [rewrite_of_none (by rw [looked, found]; rfl), read, Option.map_some, Target.renamed, kept]
      | some new =>
        have id := ht.components _ (Table.mem_of_get? found)
        have changed : t.component name = new := by rw [component, found]; rfl
        rw [rewrite_of_some (by rw [looked, found]; rfl),
          Target.parse?_component id.nonempty (Token.trimText_component id), Option.map_some,
          Target.renamed, changed]
    | none =>
      rw [after] at looked read
      dsimp only at looked read
      rw [read]
      have entity : t.entity s = (t.entities.get? s).getD s := by
        rw [RemapTables.entity, free]
        rfl
      cases found : t.entities.get? s with
      | none =>
        rw [rewrite_of_none (looked.trans found), read, Option.map_some, Target.renamed, entity, found]
        rfl
      | some new =>
        have id := ht.entities _ (Table.mem_of_get? found)
        rw [rewrite_of_some (looked.trans found), Target.parse?_entity id, Option.map_some,
          Target.renamed, entity, found]
        rfl

/-- Renaming before reading is renaming after just when blanks make no difference. -/
theorem Clean.parse?_rewrite_iff (ht : t.Clean) (s : String) :
    Target.parse? (t.rewrite s) = (Target.parse? s).map (Target.renamed t) ↔ t.Overlooks s := by
  rw [Overlooks]
  split
  case isTrue nameless =>
    have nothing : Target.parse? s = none := by
      rw [← Target.parse?_trimText, nameless]
      decide +kernel
    have free : Token.isReserved s = false := by
      rw [← Token.isReserved_trimText, nameless]
      decide +kernel
    rw [nothing, Option.map_none]
    rcases ht.rewrite_cases free with ⟨same, unchanged⟩ | ⟨-, -, x, read⟩
    · rw [same, nothing]
      exact iff_of_true rfl unchanged
    · refine iff_of_false (by rw [read]; exact Option.some_ne_none x) fun unchanged => ?_
      rw [rewrite_of_none unchanged, nothing] at read
      cases read
  case isFalse named =>
    have trimmed := ht.parse?_rewrite (trimText_trimText s) named
    rw [Target.parse?_trimText] at trimmed
    rw [← trimmed]
    cases free : Token.isReserved s with
    | true =>
      have free' := (Token.isReserved_trimText s).trans free
      rw [rewrite_of_none (rename?_of_reserved free _), rewrite_of_none (rename?_of_reserved free' _),
        Target.parse?_trimText]
      exact iff_of_true rfl rfl
    | false =>
      have free' := (Token.isReserved_trimText s).trans free
      have there : trimText (t.rewrite (trimText s)) = t.rewrite (trimText s) := by
        rcases ht.rewrite_cases free' with ⟨same, -⟩ | ⟨-, trimmed, -⟩
        · rw [same, trimText_trimText]
        · exact trimmed
      constructor
      · intro same
        obtain ⟨x, read⟩ := Target.exists_parse? free named
        rw [read] at trimmed
        rw [← Target.token_of_parse? (ht.rewrite_free free) (same.trans trimmed),
          Target.token_of_parse? (ht.rewrite_free free') trimmed, there]
      · intro same
        rw [← Target.parse?_trimText (t.rewrite s), same]

/-! ## Fields of blocks -/

/-- What has been put into a sorted list is found there. -/
theorem lookup_insertSorted {β : Type} (k : String) (v : β) (l : List (String × β)) :
    (insertSorted k v l).lookup k = some v := by
  induction l with
  | nil => exact List.lookup_cons_self
  | cons e rest ih =>
    obtain ⟨k', v'⟩ := e
    rw [insertSorted]
    split
    · exact List.lookup_cons_self
    split
    · exact List.lookup_cons_self
    · rw [List.lookup_cons, beq_false_of_ne ‹_›]
      exact ih

theorem rename?_empty : t.rename? .sensingTarget "" = none :=
  rename?_of_reserved (by decide +kernel) _

/-- Where a block names a target, renaming the block rewrites that text. -/
theorem fieldText_renamed (t : RemapTables) {b : Block} {field : String}
    (senses : Senses b.type field) :
    (t.renamed b).fieldText field = t.rewrite (b.fieldText field) := by
  obtain ⟨type, fields, inputs, statements⟩ := b
  obtain ⟨kind, parsed, entry⟩ := senses
  have sensing : (BlockKind.parse? type).bind referenceField?
      = some ⟨kind, field, .sensingTarget⟩ := by
    rw [show BlockKind.parse? type = some kind from parsed]
    exact entry
  have text : ∀ fs i s', (Block.mk type fs i s').fieldText field
      = (fs.lookup field).elim "" Value.toText := by
    intro fs i s'
    cases found : fs.lookup field <;> simp only [Block.fieldText, Block.fields, found] <;> rfl
  rw [renamed, remapBlock, text, text, remapFields, sensing]
  dsimp only
  cases current : fields.lookup field with
  | none =>
    dsimp only
    rw [current, Option.elim_none, rewrite_of_none rename?_empty]
  | some v =>
    dsimp only
    cases changed : t.rename? .sensingTarget v.toText with
    | none =>
      dsimp only
      rw [current, Option.elim_some, rewrite_of_none changed]
    | some mapped =>
      dsimp only
      rw [Option.elim_some, rewrite_of_some changed]
      by_cases same : mapped = v.toText
      · rw [if_pos same, current, same]
        rfl
      · rw [if_neg same, lookup_insertSorted]
        rfl

/-- Empty tables rename nothing. -/
theorem rewrite_of_isEmpty (h : t.isEmpty = true) (s : String) : t.rewrite s = s := by
  simp only [isEmpty, Table.isEmpty, Bool.and_eq_true, List.isEmpty_iff] at h
  obtain ⟨⟨⟨entities, -⟩, -⟩, components⟩ := h
  have entity : ∀ id, t.entities.get? id = none := fun id => by rw [Table.get?, entities]; rfl
  have group : ∀ name, t.components.get? name = none := fun n => by rw [Table.get?, components]; rfl
  refine rewrite_of_none ?_
  cases free : Token.isReserved s with
  | true => exact rename?_of_reserved free _
  | false =>
    rw [rename?_of_free free]
    split
    · rw [group]
      rfl
    · exact entity s

end RemapTables

/-! ## Programs -/

/-- In a program as it is after renaming, each block is of the type that it had, and senses what it
    sensed before, renamed, just when blanks make no difference to what becomes of the text that
    names it. -/
theorem Program.senses_remap_iff (p : Program) (t : RemapTables) (ht : t.Clean) :
    List.Forall₂ (fun b b' => b'.type = b.type ∧ ∀ field, Senses b.type field →
      (Target.parse? (b'.fieldText field)
          = (Target.parse? (b.fieldText field)).map (Target.renamed t) ↔
        t.Overlooks (b.fieldText field))) p.walk (p.remap t).1.walk := by
  rw [Program.remap]
  cases empty : t.isEmpty with
  | true =>
    refine List.forall₂_same.mpr fun b _ => ⟨rfl, fun field _ => ?_⟩
    have same := ht.parse?_rewrite_iff (b.fieldText field)
    rwa [t.rewrite_of_isEmpty empty] at same
  | false =>
    have blocks : Program.walk (t.remapList p).1 = p.walk.map t.renamed := t.walk_remapList p
    rw [if_neg Bool.false_ne_true, blocks, List.forall₂_map_right_iff]
    refine List.forall₂_same.mpr fun b _ => ⟨?_, fun field senses => ?_⟩
    · obtain ⟨type, fields, inputs, statements⟩ := b
      rw [RemapTables.renamed, RemapTables.remapBlock]
      rfl
    · rw [t.fieldText_renamed senses]
      exact ht.parse?_rewrite_iff _

/-- A hat that waits for a touch of the enemy, whose id is written behind a blank. -/
def ambush : Program := [.mk "when_touching" [("TARGET", .text " enemy")] [] []]

/-- Tables for a copy of the enemy. -/
def doubles : RemapTables := ⟨⟨[("enemy", "enemy-2")]⟩, .empty, .empty, .empty⟩

theorem clean_doubles : doubles.Clean where
  entities e he := by
    obtain rfl := List.mem_singleton.mp he
    exact ⟨by decide +kernel, by decide, by decide +kernel, by decide +kernel⟩
  components _ he := (List.not_mem_nil he).elim

/-- The ambush is a program to which this applies; -/
theorem senses_ambush_iff : doubles.Clean ∧
    List.Forall₂ (fun b b' => b'.type = b.type ∧ ∀ field, Senses b.type field →
      (Target.parse? (b'.fieldText field)
          = (Target.parse? (b.fieldText field)).map (Target.renamed doubles) ↔
        doubles.Overlooks (b.fieldText field))) ambush.walk (ambush.remap doubles).1.walk :=
  ⟨clean_doubles, ambush.senses_remap_iff doubles clean_doubles⟩

/-- and after renaming it still waits for the first enemy, not for the copy. -/
theorem senses_ambush_ne : doubles.Clean ∧ Senses "when_touching" "TARGET" ∧
    (ambush.remap doubles).1.walk.map (fun b => Target.parse? (b.fieldText "TARGET"))
      = [some (.entity "enemy")] ∧
    ambush.walk.map (fun b => (Target.parse? (b.fieldText "TARGET")).map (Target.renamed doubles))
      = [some (.entity "enemy-2")] :=
  ⟨clean_doubles, ⟨.whenTouching, by decide +kernel, rfl⟩, by decide +kernel, by decide +kernel⟩

end BlockStage
