/-
  Spellings: whatever is named by a text has a canonical text of its own.

  1. **Specification (`CanonicalNames`)** — a thing is read from its spellings and no other text.
     Its canonical text is one of them, so that it can be read back, and so two things are the same
     just if their canonical texts are.

  2. **Targets (`Target.parse?_eq_some_iff`)** — blanks around a token do not matter, and only the
     pointer has a second one.

  3. **Keys (`Key.parse?_eq_some_iff`)** — texts are taken in normal form (`Key.normal`), trimmed
     and in lower case.  A character also stands behind `key` or `digit`.  Then it is the last one
     of a text in normal form, so alone it is in normal form as well (`Key.normal_last`), and no
     other key has a spelling of that shape.
-/
import BlockStage.Proofs.Block.Rename
import BlockStage.Proofs.Text.Lowercase

namespace BlockStage

/-- What is read from texts has a canonical text. -/
structure CanonicalNames {α : Type} (parse? : String → Option α) (text : α → String)
    (Spells : String → α → Prop) : Prop where
  /-- A text is read as the thing that it spells. -/
  spells_iff : ∀ raw x, parse? raw = some x ↔ Spells raw x
  /-- The canonical text of what has been read is read as the same again. -/
  reads_back : ∀ raw x, parse? raw = some x → parse? (text x) = some x
  /-- However two things are spelt, they are the same just if their canonical texts are. -/
  eq_iff : ∀ raw raw' x x', parse? raw = some x → parse? raw' = some x' →
    (x = x' ↔ text x = text x')

/-- It is enough that what has a spelling is spelt by its canonical text. -/
theorem CanonicalNames.of_spells {α : Type} {parse? : String → Option α} {text : α → String}
    {Spells : String → α → Prop} (spells_iff : ∀ raw x, parse? raw = some x ↔ Spells raw x)
    (own : ∀ raw x, Spells raw x → Spells (text x) x) : CanonicalNames parse? text Spells := by
  have back : ∀ raw x, parse? raw = some x → parse? (text x) = some x := fun raw x h =>
    (spells_iff _ _).mpr (own raw x ((spells_iff _ _).mp h))
  refine ⟨spells_iff, back, fun raw raw' x x' h h' => ⟨congrArg text, fun same => ?_⟩⟩
  have again := back raw x h
  rw [same, back raw' x' h'] at again
  exact (Option.some.inj again).symm

/-! ## Targets -/

namespace Target

/-- The tokens of a target. -/
def spellings : Target → List String
  | .pointer => [Token.pointer, Token.mouse]
  | x => [x.token]

/-- Can the target be named?  An entity cannot if its id is read as something else, nor can a group
    that has no name or one with blanks at its end. -/
def Nameable : Target → Prop
  | .entity id => CleanId id ∨ id = Token.myself
  | .component name => name ≠ "" ∧ trimText (Token.component ++ name) = Token.component ++ name
  | _ => True

/-- Is the text a spelling of the target? -/
def Spelt (raw : String) (x : Target) : Prop := x.Nameable ∧ trimText raw ∈ x.spellings

variable {raw : String} {x : Target}

theorem token_mem_spellings (x : Target) : x.token ∈ x.spellings := by
  cases x <;> exact .head _

/-- The reserved tokens, each with what it is read as. -/
def readings : List (String × Option Target) :=
  [("", none), (Token.edge, some edge), (Token.ground, some ground),
    (Token.pointer, some pointer), (Token.mouse, some pointer), (Token.myClones, some myClones),
    (Token.myself, some (entity Token.myself))]

theorem holds_readings : ∀ e ∈ readings,
    trimText e.1 = e.1 ∧ Token.isReserved e.1 = true ∧ parse? e.1 = e.2 := by
  decide +kernel

theorem isReserved_myself : Token.isReserved Token.myself = true :=
  (holds_readings (Token.myself, some (entity Token.myself)) (by simp [readings])).2.1

theorem parse?_reserved (h : Token.isReserved raw = true) :
    (trimText raw, parse? raw) ∈ readings := by
  have listed : trimText raw ∈ readings.map Prod.fst := List.contains_iff_mem.mp h
  obtain ⟨⟨word, read⟩, there, same⟩ := List.mem_map.mp listed
  rwa [← parse?_trimText, ← same, (holds_readings _ there).2.2]

/-- A spelling of a target is a reserved token, an id, or the name of a group behind its mark. -/
theorem spelling_cases {word : String} (nameable : x.Nameable) (h : word ∈ x.spellings) :
    (word, some x) ∈ readings ∨ (CleanId word ∧ x = .entity word) ∨
      ∃ name, name ≠ "" ∧ trimText word = word ∧ word = Token.component ++ name ∧
        x = .component name := by
  cases x with
  | entity id =>
    obtain rfl := List.mem_singleton.mp h
    rcases nameable with clean | own
    · exact .inr (.inl ⟨clean, rfl⟩)
    · exact .inl (by simp [readings, own])
  | component name =>
    obtain rfl := List.mem_singleton.mp h
    exact .inr (.inr ⟨name, nameable.1, nameable.2, rfl, rfl⟩)
  | pointer => rcases List.mem_pair.mp h with rfl | rfl <;> exact .inl (by simp [readings])
  | edge | ground | myClones =>
    obtain rfl := List.mem_singleton.mp h
    exact .inl (by simp [readings, token])

/-- A reserved token spells what it is read as. -/
theorem spelling_of_reading {word : String} (h : (word, some x) ∈ readings) :
    x.Nameable ∧ word ∈ x.spellings := by
  simp only [readings, List.mem_cons, Prod.mk.injEq, List.not_mem_nil, or_false,
    reduceCtorEq, and_false, false_or, Option.some.injEq] at h
  rcases h with ⟨rfl, rfl⟩ | ⟨rfl, rfl⟩ | ⟨rfl, rfl⟩ | ⟨rfl, rfl⟩ | ⟨rfl, rfl⟩ | ⟨rfl, rfl⟩
  · exact ⟨trivial, .head _⟩
  · exact ⟨trivial, .head _⟩
  · exact ⟨trivial, .head _⟩
  · exact ⟨trivial, .tail _ (.head _)⟩
  · exact ⟨trivial, .head _⟩
  · exact ⟨.inr rfl, .head _⟩

theorem Nameable.trimmed (h : x.Nameable) : trimText x.token = x.token := by
  rcases spelling_cases h x.token_mem_spellings with word | ⟨clean, -⟩ | ⟨-, -, trimmed, -⟩
  · exact (holds_readings _ word).1
  · exact clean.trimmed
  · exact trimmed

theorem Spelt.token (h : Spelt raw x) : Spelt x.token x := by
  refine ⟨h.1, ?_⟩
  rw [h.1.trimmed]
  exact x.token_mem_spellings

/-- **From which texts a target is read.** -/
theorem parse?_eq_some_iff (raw : String) (x : Target) : parse? raw = some x ↔ Spelt raw x := by
  constructor
  · intro read
    cases reserved : Token.isReserved raw with
    | true =>
      have listed := parse?_reserved reserved
      rw [read] at listed
      exact spelling_of_reading listed
    | false =>
      rw [parse?_of_free reserved] at read
      split at read
      case h_1 name group =>
        have whole : trimText raw = Token.component ++ name := Token.eq_of_afterComponent? group
        split_ifs at read with none
        obtain rfl := Option.some.inj read
        refine ⟨⟨none, ?_⟩, whole ▸ .head _⟩
        rw [← whole, trimText_trimText]
      case h_2 plain =>
        obtain rfl := Option.some.inj read
        have free : Token.isReserved (trimText raw) = false := by
          rw [Token.isReserved_trimText, reserved]
        refine ⟨.inl ⟨trimText_trimText raw, ?_, free, plain⟩, .head _⟩
        intro empty
        rw [empty, (holds_readings ("", none) (.head _)).2.1] at free
        cases free
  · rintro ⟨nameable, spelling⟩
    rw [← parse?_trimText]
    rcases spelling_cases nameable spelling with
      word | ⟨clean, rfl⟩ | ⟨name, some, trimmed, whole, rfl⟩
    · exact (holds_readings _ word).2.2
    · exact parse?_entity clean
    · rw [whole] at trimmed ⊢
      exact parse?_component some trimmed

/-- Of what is read as an entity or a group, the token of the entity itself alone is reserved. -/
theorem isReserved_iff (read : parse? raw = some x)
    (actors : (∃ id, x = .entity id) ∨ ∃ name, x = .component name) :
    Token.isReserved raw = true ↔ x = .entity Token.myself := by
  obtain ⟨nameable, spelling⟩ := (parse?_eq_some_iff raw x).mp read
  rw [← Token.isReserved_trimText]
  rcases actors with ⟨id, rfl⟩ | ⟨name, rfl⟩
  · rw [List.mem_singleton.mp spelling, token, entity.injEq]
    rcases nameable with clean | rfl
    · refine iff_of_false (by rw [clean.free]; exact Bool.false_ne_true) ?_
      rintro rfl
      exact Bool.eq_false_iff.mp clean.free isReserved_myself
    · exact iff_of_true isReserved_myself rfl
  · rw [List.mem_singleton.mp spelling, token, Token.isReserved_component nameable.2]
    exact iff_of_false Bool.false_ne_true (by rintro ⟨⟩)

end Target

/-! ## Keys -/

namespace Key

/-- The normal form of a text, in which keys are read. -/
def normal (raw : String) : String := lowercase (trimText raw)

/-- The spellings of a key, in normal form. -/
def spellings : Key → List String
  | .named key => (NamedKey.spellings.filter fun e => e.2 = key).map Prod.fst
  | .character text => [text, "key" ++ text, "digit" ++ text]
  | .any => ["any"]

/-- Can the key be named?  Of characters, each can that stands alone and in normal form. -/
def Nameable : Key → Prop
  | .character text => text.toList.length = 1 ∧ normal text = text
  | _ => True

/-- Is the text a spelling of the key?  A single blank is one for the space bar; any other text is
    taken in normal form. -/
def Spelt (raw : String) (k : Key) : Prop :=
  k.Nameable ∧ if raw = " " then k = .named .space else normal raw ∈ k.spellings

variable {raw : String} {k : Key}

theorem trimText_normal (raw : String) : trimText (normal raw) = normal raw :=
  trimText_lowercase (trimText_trimText raw)

/-- **The normal form is one for good.** -/
theorem normal_normal (raw : String) : normal (normal raw) = normal raw := by
  rw [normal, trimText_normal, normal, lowercase_lowercase]

/-- The last character of a text in normal form is in normal form. -/
theorem normal_last {c : Char} (last : (normal raw).toList.getLast? = some c) :
    normal (String.ofList [c]) = String.ofList [c] := by
  obtain ⟨-, ends⟩ := trimChars_eq_self_iff.mp (trimText_eq_self_iff.mp (trimText_normal raw))
  have visible := ends c last
  have trimmed : trimText (String.ofList [c]) = String.ofList [c] := by
    rw [trimText_eq_self_iff, String.toList_ofList]
    refine trimChars_eq_self_iff.mpr ⟨?_, ?_⟩ <;> rintro d ⟨⟩ <;> exact visible
  rw [normal, trimmed]
  refine lowercase_eq_self fun d hd => ?_
  rw [String.toList_ofList] at hd
  obtain rfl := List.mem_singleton.mp hd
  exact settled_of_mem_lowercase (List.mem_of_getLast? last)

/-! ### Characters -/

/-- The text behind `key` or `digit`. -/
def behind? (cs : List Char) : Option (List Char) :=
  (after? "key".toList cs).or (after? "digit".toList cs)

/-- No text begins with both words. -/
theorem behind?_eq_some_iff {cs r : List Char} :
    behind? cs = some r ↔ cs = "key".toList ++ r ∨ cs = "digit".toList ++ r := by
  rw [behind?, Option.or_eq_some_iff, after?_eq_some_iff, after?_eq_some_iff]
  -- the second word is tried only if the first is not there, which it cannot be in front of it
  refine or_congr_right (and_iff_right_of_imp fun digit => ?_)
  refine Option.eq_none_iff_forall_ne_some.mpr fun r' key => ?_
  have first : some 'd' = some 'k' :=
    congrArg List.head? (digit.symm.trans (after?_eq_some_iff.mp key))
  revert first
  decide

theorem single?_eq (cs : List Char) : single? cs =
    match behind? cs with
    | some r => if r.length = 1 then some r else if cs.length = 1 then some cs else none
    | none => if cs.length = 1 then some cs else none := by
  rw [single?, behind?]
  cases after? "key".toList cs with
  | some r => by_cases one : r.length = 1 <;> simp only [Option.some_or, one, if_true, if_false]
  | none =>
    cases after? "digit".toList cs with
    | some r => by_cases one : r.length = 1 <;> simp only [Option.none_or, one, if_true, if_false]
    | none => rfl

/-- A single character stands alone, or behind `key` or `digit`. -/
theorem single?_eq_some_iff {cs r : List Char} : single? cs = some r ↔
    r.length = 1 ∧ (cs = r ∨ cs = "key".toList ++ r ∨ cs = "digit".toList ++ r) := by
  rw [single?_eq, ← behind?_eq_some_iff]
  have alone : (if cs.length = 1 then some cs else none) = some r ↔ r.length = 1 ∧ cs = r := by
    rw [Option.ite_none_right_eq_some, Option.some.injEq]
    exact and_congr_left fun same => same ▸ Iff.rfl
  cases behind : behind? cs with
  | none =>
    rw [alone]
    exact and_congr_right fun _ => (or_iff_left (by rintro ⟨⟩)).symm
  | some rest =>
    have long : cs.length ≠ 1 := by
      rcases behind?_eq_some_iff.mp behind with rfl | rfl <;> rw [List.length_append]
      · show 3 + rest.length ≠ 1
        omega
      · show 5 + rest.length ≠ 1
        omega
    dsimp only
    rw [if_neg long, Option.ite_none_right_eq_some, Option.some.injEq]
    constructor
    · rintro ⟨one, rfl⟩
      exact ⟨one, .inr rfl⟩
    · rintro ⟨one, rfl | rfl⟩
      · exact absurd one long
      · exact ⟨one, rfl⟩

/-- The spellings of a character are the texts in which it is found. -/
theorem single?_toList_eq_some_iff {s text : String} : single? s.toList = some text.toList ↔
    text.toList.length = 1 ∧ s ∈ spellings (.character text) := by
  rw [single?_eq_some_iff, ← String.toList_append, ← String.toList_append, String.toList_inj,
    String.toList_inj, String.toList_inj]
  simp only [spellings, List.mem_cons, List.not_mem_nil, or_false]

/-- What is found in a text in normal form can be named. -/
theorem nameable_of_single? {r : List Char} (h : single? (normal raw).toList = some r) :
    Nameable (.character (String.ofList r)) := by
  obtain ⟨one, whole⟩ := single?_eq_some_iff.mp h
  obtain ⟨c, rfl⟩ := List.length_eq_one_iff.mp one
  have last : (normal raw).toList.getLast? = some c := by
    rcases whole with whole | whole | whole <;> rw [whole]
    · rfl
    · exact List.getLast?_concat
    · exact List.getLast?_concat
  exact ⟨by rw [String.toList_ofList]; rfl, normal_last last⟩

/-! ### Reading -/

/-- Each word for a key is listed once.  None is empty or `any`, and no character is found in one:
    only a blank would be, and that is not in normal form. -/
theorem words_apart : ∀ e ∈ NamedKey.spellings, NamedKey.spellings.lookup e.1 = some e.2 ∧
    e.1 ≠ "" ∧ e.1 ≠ "any" ∧ (e.1 = " " ∨ single? e.1.toList = none) := by
  decide +kernel

theorem lookup_eq_some_iff {s : String} {key : NamedKey} :
    NamedKey.spellings.lookup s = some key ↔ s ∈ spellings (.named key) := by
  have named : s ∈ spellings (.named key) ↔ (s, key) ∈ NamedKey.spellings := by
    simp only [spellings, List.mem_map, List.mem_filter, decide_eq_true_eq, Prod.exists,
      exists_and_right, exists_eq_right]
  rw [named]
  exact ⟨Table.mem_of_get? (t := ⟨NamedKey.spellings⟩), fun word => (words_apart _ word).1⟩

theorem normal_ne_blank (raw : String) : normal raw ≠ " " := by
  intro blank
  have trimmed := trimText_normal raw
  rw [blank, trimText_eq_self_iff] at trimmed
  cases (trimChars_eq_self_iff.mp trimmed).1 ' ' rfl

/-- A text other than a single blank is read in its normal form. -/
theorem parse?_of_ne (h : raw ≠ " ") : parse? raw =
    if normal raw = "" then none
    else if normal raw = "any" then some .any
    else ((NamedKey.spellings.lookup (normal raw)).map .named).or
      ((single? (normal raw).toList).map fun cs => .character (String.ofList cs)) := by
  rw [parse?, if_neg h, normal]
  generalize lowercase (trimText raw) = text
  dsimp only
  cases NamedKey.spellings.lookup text <;> rfl

/-- A word for a key is read as that key. -/
theorem parse?_named {key : NamedKey} (blank : raw ≠ " ")
    (h : normal raw ∈ spellings (.named key)) : parse? raw = some (.named key) := by
  have listed := lookup_eq_some_iff.mpr h
  obtain ⟨-, empty, any, -⟩ := words_apart _ (Table.mem_of_get? (t := ⟨NamedKey.spellings⟩) listed)
  rw [parse?_of_ne blank, if_neg empty, if_neg any, listed, Option.map_some, Option.some_or]

/-- A text in which a character is found is read as that character. -/
theorem parse?_character {text : String} (blank : raw ≠ " ")
    (found : single? (normal raw).toList = some text.toList) :
    parse? raw = some (.character text) := by
  have empty : normal raw ≠ "" := by
    intro empty
    rw [empty] at found
    cases found
  have any : normal raw ≠ "any" := by
    intro any
    rw [any] at found
    cases found
  have unnamed : NamedKey.spellings.lookup (normal raw) = none := by
    refine Option.eq_none_iff_forall_ne_some.mpr fun key listed => ?_
    have word := Table.mem_of_get? (t := ⟨NamedKey.spellings⟩) listed
    rcases (words_apart _ word).2.2.2 with blank | missing
    · exact normal_ne_blank raw blank
    · rw [found] at missing
      cases missing
  rw [parse?_of_ne blank, if_neg empty, if_neg any, unnamed, Option.map_none, Option.none_or,
    found, Option.map_some, String.ofList_toList]

/-- **From which texts a key is read.** -/
theorem parse?_eq_some_iff (raw : String) (k : Key) : parse? raw = some k ↔ Spelt raw k := by
  rw [Spelt]
  split
  case isTrue blank =>
    rw [parse?, if_pos blank, Option.some.injEq]
    exact ⟨fun same => ⟨same ▸ trivial, same.symm⟩, fun h => h.2.symm⟩
  case isFalse blank =>
    constructor
    · intro read
      rw [parse?_of_ne blank] at read
      split_ifs at read with empty any
      · obtain rfl := Option.some.inj read
        exact ⟨trivial, any ▸ .head _⟩
      rcases Option.or_eq_some_iff.mp read with named | ⟨-, character⟩
      · obtain ⟨key, listed, rfl⟩ := Option.map_eq_some_iff.mp named
        exact ⟨trivial, lookup_eq_some_iff.mp listed⟩
      · obtain ⟨r, single, rfl⟩ := Option.map_eq_some_iff.mp character
        have nameable := nameable_of_single? single
        rw [← String.toList_ofList (l := r)] at single
        exact ⟨nameable, (single?_toList_eq_some_iff.mp single).2⟩
    · rintro ⟨nameable, spelling⟩
      cases k with
      | named key => exact parse?_named blank spelling
      | character text =>
        exact parse?_character blank (single?_toList_eq_some_iff.mpr ⟨nameable.1, spelling⟩)
      | any =>
        have any := List.mem_singleton.mp spelling
        rw [parse?_of_ne blank, if_neg (by rw [any]; decide), if_pos any]

theorem Spelt.label (h : Spelt raw k) : Spelt k.label k := by
  refine ⟨h.1, ?_⟩
  cases k with
  | named key => cases key <;> decide +kernel
  | character text =>
    have normal : normal text = text := h.1.2
    have blank : text ≠ " " := normal ▸ normal_ne_blank text
    rw [Key.label, if_neg blank, normal]
    exact .head _
  | any => decide +kernel

end Key

/-! ## The result -/

/-- **Targets and keys have canonical names**, and of the names of entities and groups only that of
    the entity itself is reserved. -/
theorem canonical_names :
    CanonicalNames Target.parse? Target.token Target.Spelt ∧
      CanonicalNames Key.parse? Key.label Key.Spelt ∧
      ∀ raw x, Target.parse? raw = some x →
        (∃ id, x = .entity id) ∨ (∃ name, x = .component name) →
        (Token.isReserved raw = true ↔ x = .entity Token.myself) :=
  ⟨.of_spells Target.parse?_eq_some_iff fun _ _ => Target.Spelt.token,
    .of_spells Key.parse?_eq_some_iff fun _ _ => Key.Spelt.label,
    fun _ _ => Target.isReserved_iff⟩

/-- The pointer by its older token, a letter by its name on a keyboard, an arrow by two names of its
    own, and the entity itself behind a blank. -/
theorem canonical_names_respelt :
    (Target.parse? " _mouse_" = some .pointer ∧
      Target.parse? (Target.token .pointer) = some .pointer) ∧
    (Key.parse? "KeyÉ\t" = some (.character "é") ∧
      Key.parse? (Key.label (.character "é")) = some (.character "é")) ∧
    (Key.parse? "ArrowUp" = some (.named .up) ∧ Key.parse? "UP ARROW" = some (.named .up) ∧
      (Key.named .up = .named .up ↔ Key.label (.named .up) = Key.label (.named .up))) ∧
    (Target.parse? " _myself_" = some (.entity "_myself_") ∧
      (Token.isReserved " _myself_" = true ↔ Target.entity "_myself_" = .entity Token.myself)) := by
  obtain ⟨targets, keys, reserved⟩ := canonical_names
  have mouse : Target.parse? " _mouse_" = some .pointer := by decide +kernel
  have letter : Key.parse? "KeyÉ\t" = some (.character "é") := by decide +kernel
  have arrow : Key.parse? "ArrowUp" = some (.named .up) := by decide +kernel
  have other : Key.parse? "UP ARROW" = some (.named .up) := by decide +kernel
  have myself : Target.parse? " _myself_" = some (.entity "_myself_") := by decide +kernel
  exact ⟨⟨mouse, targets.reads_back _ _ mouse⟩, ⟨letter, keys.reads_back _ _ letter⟩,
    ⟨arrow, other, keys.eq_iff _ _ _ _ arrow other⟩, myself, reserved _ _ myself (.inl ⟨_, rfl⟩)⟩

end BlockStage
