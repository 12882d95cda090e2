/-
  Saved trees: when a decoder reads back the value that a tree was made from.

  1. **Specification (`TextLayer.ReadsBack`)** — a layer of text writes trees and reads texts.  It
     reads a tree back if it finds the same texts, names and truth values in the same places, and
     equal numbers; a real number may come back as a whole one (`Json.readsAs`).  How deep the tree
     nests is a matter of its own (`Json.depth`).

  2. **The crux (`Decoder.Reads`)** — a decoder reads a value from a tree if it does so from
     whatever the tree may come back as, given the room for it.  Each decoder has its rule.

  3. **Records (`Reads.record`)** — an object is read member by member.  Members may have been left
     out, and then it is for the default of the field to be what was left out (`Fields.Holds`).
-/
import BlockStage.Proofs.Block.Substitution
import BlockStage.Proofs.Number.Word

namespace BlockStage

/-! ## Specification -/

/-- May a number be read back as another?  A real number may come back as a whole one that has its
    value in both widths. -/
def JsonNumber.readsAs : JsonNumber → JsonNumber → Bool
  | .integer i, .integer k => i == k
  | .real x, .real y => decide (x = y)
  | .real x, .integer i => decide (doubleOfInt i = x) && decide (singleOfInt i = narrow x)
  | _, _ => false

namespace Json

mutual

/-- May a tree be read back as another? -/
def readsAs : Json → Json → Bool
  | .null, .null => true
  | .bool b, .bool c => b == c
  | .number m, .number n => m.readsAs n
  | .text s, .text t => s == t
  | .array l, .array m => itemsReadAs l m
  | .object l, .object m => membersReadAs l m
  | _, _ => false

/-- May elements be read back as others, one by one? -/
def itemsReadAs : List Json → List Json → Bool
  | [], [] => true
  | j :: l, k :: m => readsAs j k && itemsReadAs l m
  | _, _ => false

/-- May members be read back as others, one by one, under their names? -/
def membersReadAs : List (Option String × Json) → List (Option String × Json) → Bool
  | [], [] => true
  | (name, j) :: l, (name', k) :: m => name == name' && readsAs j k && membersReadAs l m
  | _, _ => false

end

mutual

/-- How many arrays and objects stand within each other. -/
def depth : Json → Nat
  | .array items => itemsDepth items + 1
  | .object members => membersDepth members + 1
  | _ => 0

/-- The depth of the deepest element. -/
def itemsDepth : List Json → Nat
  | [] => 0
  | j :: rest => max (depth j) (itemsDepth rest)

/-- The depth of the deepest member. -/
def membersDepth : List (Option String × Json) → Nat
  | [] => 0
  | (_, j) :: rest => max (depth j) (membersDepth rest)

end

end Json

/-- A layer of text: how trees are written, and how texts are read. -/
structure TextLayer where
  write : Json → String
  read? : String → Option Json

namespace TextLayer

variable {α : Type} (T : TextLayer)

/-- The layer that records and scenes are written and read with. -/
def plain : TextLayer := ⟨Json.render, Json.parse?⟩

/-- The layer reads back a tree that it wrote. -/
def ReadsBack (j : Json) : Prop := (T.read? (T.write j)).any j.readsAs = true

instance (j : Json) : Decidable (T.ReadsBack j) := inferInstanceAs (Decidable (_ = true))

-- minus nought is written without its sign
example : plain.ReadsBack (.number (.real 64)) ∧ ¬plain.ReadsBack (.number (.real (-0))) := by
  decide +kernel

/-- Decodes a text, with so much room for nesting. -/
def load (d : Decoder α) (room : Nat) (text : String) : Option α := (T.read? text).bind (d room)

theorem load_plain (d : Decoder α) (text : String) :
    plain.load d nestingLimit text = decodeText? d text := rfl

end TextLayer

/-- Reads a value from what a tree is read back as, given the room for its nesting. -/
def Decoder.Reads {α : Type} (d : Decoder α) (j : Json) (a : α) : Prop :=
  ∀ room k, j.depth ≤ room → j.readsAs k = true → d room k = some a

theorem TextLayer.load_write {α : Type} {T : TextLayer} {d : Decoder α} {j : Json} {a : α}
    {room : Nat} (reads : d.Reads j a) (back : T.ReadsBack j) (deep : j.depth ≤ room) :
    T.load d room (T.write j) = some a := by
  obtain ⟨k, found, same⟩ := (Option.any_eq_true _ _).mp back
  rw [load, found, Option.bind_some]
  exact reads room k deep same

/-! ## What a tree is read back as -/

namespace Json

theorem readsAs_null {j : Json} (same : j.readsAs .null = true) : j = .null := by
  cases j with
  | null => rfl
  | _ => cases same

theorem bool_readsAs {b : Bool} {k : Json} (same : (Json.bool b).readsAs k = true) :
    k = .bool b := by
  cases k with
  | bool c => exact congrArg Json.bool (eq_of_beq same).symm
  | _ => cases same

theorem str_readsAs {s : String} {k : Json} (same : (Json.str s).readsAs k = true) :
    k = .str s := by
  cases k with
  | text t => exact congrArg Json.text (eq_of_beq same).symm
  | _ => cases same

theorem number_readsAs {m : JsonNumber} {k : Json} (same : (Json.number m).readsAs k = true) :
    ∃ n, k = .number n ∧ m.readsAs n = true := by
  cases k with
  | number n => exact ⟨n, rfl, same⟩
  | _ => cases same

theorem int_readsAs {i : Int} {k : Json} (same : (Json.int i).readsAs k = true) :
    k = .int i := by
  obtain ⟨n, rfl, same⟩ := number_readsAs same
  cases n with
  | integer k => rw [int, eq_of_beq same]
  | _ => cases same

theorem real_readsAs {x : Float} {k : Json} (same : (Json.number (.real x)).readsAs k = true) :
    k = .number (.real x) ∨
      ∃ i, k = .number (.integer i) ∧ doubleOfInt i = x ∧ singleOfInt i = narrow x := by
  obtain ⟨n, rfl, same⟩ := number_readsAs same
  cases n with
  | integer i =>
    obtain ⟨double, single⟩ := Bool.and_eq_true_iff.mp same
    exact .inr ⟨i, rfl, of_decide_eq_true double, of_decide_eq_true single⟩
  | real y => exact .inl (by rw [of_decide_eq_true same])
  | tooLarge => cases same

theorem forall₂_of_itemsReadAs {l m : List Json} (same : itemsReadAs l m = true) :
    List.Forall₂ (fun j k => j.readsAs k = true) l m := by
  induction l generalizing m with
  | nil =>
    cases m with
    | nil => exact .nil
    | cons k m => cases same
  | cons j l ih =>
    cases m with
    | nil => cases same
    | cons k m =>
      obtain ⟨first, others⟩ := Bool.and_eq_true_iff.mp same
      exact .cons first (ih others)

theorem array_readsAs {l : List Json} {k : Json} (same : (Json.array l).readsAs k = true) :
    ∃ m, k = .array m ∧ List.Forall₂ (fun j k => j.readsAs k = true) l m := by
  cases k with
  | array m => exact ⟨m, rfl, forall₂_of_itemsReadAs same⟩
  | _ => cases same

/-- Two members of one name, the tree of the one being read back as that of the other. -/
def MemberReadsAs (a b : String × Json) : Prop := a.1 = b.1 ∧ a.2.readsAs b.2 = true

theorem exists_of_membersReadAs {l : List (String × Json)} {m : List (Option String × Json)}
    (same : membersReadAs (l.map fun a => (some a.1, a.2)) m = true) :
    ∃ n, .object m = Json.record n ∧ List.Forall₂ MemberReadsAs l n := by
  induction l generalizing m with
  | nil =>
    cases m with
    | nil => exact ⟨[], rfl, .nil⟩
    | cons b m => cases same
  | cons a l ih =>
    cases m with
    | nil => cases same
    | cons b m =>
      obtain ⟨name, k⟩ := b
      obtain ⟨first, others⟩ := Bool.and_eq_true_iff.mp same
      obtain ⟨named, tree⟩ := Bool.and_eq_true_iff.mp first
      obtain rfl := eq_of_beq named
      obtain ⟨n, found, alike⟩ := ih others
      obtain rfl := Json.object.inj found
      exact ⟨(a.1, k) :: n, rfl, .cons ⟨rfl, tree⟩ alike⟩

theorem record_readsAs {l : List (String × Json)} {k : Json}
    (same : (Json.record l).readsAs k = true) :
    ∃ n, k = .record n ∧ List.Forall₂ MemberReadsAs l n := by
  cases k with
  | object m => exact exists_of_membersReadAs same
  | _ => cases same

theorem array_ne_null (l : List Json) : Json.array l ≠ .null := Json.noConfusion

theorem record_ne_null (l : List (String × Json)) : Json.record l ≠ .null := Json.noConfusion

theorem depth_le_itemsDepth {l : List Json} {j : Json} (hj : j ∈ l) : j.depth ≤ itemsDepth l := by
  induction l with
  | nil => cases hj
  | cons first rest ih =>
    rw [itemsDepth]
    rcases List.mem_cons.mp hj with rfl | there
    · exact Nat.le_max_left _ _
    · exact (ih there).trans (Nat.le_max_right _ _)

theorem depth_lt_record {l : List (String × Json)} {m : String × Json} (hm : m ∈ l) :
    m.2.depth < (Json.record l).depth := by
  rw [record, depth, Nat.lt_succ_iff]
  induction l with
  | nil => cases hm
  | cons first rest ih =>
    rw [List.map_cons, membersDepth]
    rcases List.mem_cons.mp hm with rfl | there
    · exact Nat.le_max_left _ _
    · exact (ih there).trans (Nat.le_max_right _ _)

end Json

/-! ## Rules -/

theorem Exact.finite_iff (x : Exact) :
    (match x with
      | .finite _ _ _ => true
      | _ => false) = true ↔ ∃ n m e, x = .finite n m e := by
  cases x with
  | finite n m e => exact iff_of_true rfl ⟨n, m, e, rfl⟩
  | _ => exact iff_of_false nofun nofun

theorem isFinite_iff {x : Float} : isFinite x = true ↔ ∃ n m e, exactOf x = .finite n m e :=
  (exactOf x).finite_iff

theorem Single.finite_iff {x : Float32} :
    Single.finite x = true ↔ ∃ n m e, exactOfSingle x = .finite n m e :=
  (exactOfSingle x).finite_iff

theorem Json.finite_eq {x : Float} (h : isFinite x = true) : Json.finite x = .number (.real x) := by
  obtain ⟨n, m, e, exact⟩ := isFinite_iff.mp h
  rw [Json.finite, exact]

theorem Json.finite_ne_null {x : Float} (h : isFinite x = true) : Json.finite x ≠ .null := by
  rw [finite_eq h]
  exact Json.noConfusion

theorem Json.finiteSingle_eq {x : Float32} (h : Single.finite x = true) :
    Json.finiteSingle x = .number (.real (widen x)) := by
  obtain ⟨n, m, e, exact⟩ := Single.finite_iff.mp h
  obtain ⟨k, wide⟩ := exactOf_widen exact
  exact finite_eq (isFinite_iff.mpr ⟨_, _, _, wide⟩)

/-- Is an integer within 32 bits? -/
def isInt32 (i : Int) : Bool := decide (-2 ^ 31 ≤ i ∧ i < 2 ^ 31)

/-- Is a natural number within 64 bits? -/
def isNat64 (n : Nat) : Bool := decide (n < 2 ^ 64)

/-- What is read one by one from what elements are read back as. -/
theorem mapM_of_forall₂ {α β γ : Type} {f : α → Option β} {g : β → γ} {R : γ → α → Prop}
    {l : List β} {m : List α} (same : List.Forall₂ R (l.map g) m)
    (reads : ∀ b ∈ l, ∀ a ∈ m, R (g b) a → f a = some b) : m.mapM f = some l := by
  induction l generalizing m with
  | nil =>
    cases same
    rfl
  | cons b l ih =>
    obtain ⟨a, m, first, others, rfl⟩ := List.forall₂_cons_left_iff.mp same
    rw [List.mapM_cons, reads b List.mem_cons_self a List.mem_cons_self first,
      ih others fun b hb a ha => reads b (List.mem_cons_of_mem _ hb) a (List.mem_cons_of_mem _ ha)]
    rfl

theorem Decoder.named_record (l : List (String × Json)) :
    Decoder.named (l.map fun m => (some m.1, m.2)) = some l := by
  induction l with
  | nil => rfl
  | cons m l ih => rw [List.map_cons, named, List.mapM_cons, ← named, ih]; rfl

namespace Decoder.Reads

variable {α β : Type} {d : Decoder α}

theorem text (s : String) : Decoder.text.Reads (.str s) s := by
  intro room k _ same
  obtain rfl := Json.str_readsAs same
  rfl

theorem bool (b : Bool) : Decoder.bool.Reads (.bool b) b := by
  intro room k _ same
  obtain rfl := Json.bool_readsAs same
  rfl

theorem double {x : Float} (h : isFinite x = true) : Decoder.double.Reads (.finite x) x := by
  intro room k _ same
  rw [Json.finite_eq h] at same
  obtain rfl | ⟨i, rfl, double, -⟩ := Json.real_readsAs same
  · rfl
  · exact congrArg some double

/-- A four-byte number is written as an eight-byte one, and comes back. -/
theorem single {x : Float32} (h : Single.finite x = true) :
    Decoder.single.Reads (.finiteSingle x) x := by
  intro room k _ same
  obtain ⟨_, _, _, exact⟩ := Single.finite_iff.mp h
  rw [Json.finiteSingle_eq h] at same
  obtain rfl | ⟨i, rfl, -, single⟩ := Json.real_readsAs same
  · exact congrArg some (narrow_widen exact)
  · exact congrArg some (single.trans (narrow_widen exact))

theorem integer {lo hi i : Int} (above : lo ≤ i) (below : i ≤ hi) :
    (Decoder.integer lo hi).Reads (.int i) i := by
  intro room k _ same
  obtain rfl := Json.int_readsAs same
  exact if_pos (Bool.and_eq_true_iff.mpr ⟨decide_eq_true above, decide_eq_true below⟩)

theorem int32 {i : Int} (h : isInt32 i = true) : Decoder.int32.Reads (.int i) i :=
  have ⟨above, below⟩ := of_decide_eq_true h
  integer above (Int.le_sub_one_of_lt below)

theorem nat64 {n : Nat} (h : isNat64 n = true) : Decoder.nat64.Reads (.nat n) n := by
  intro room k deep same
  have below : (n : Int) < 2 ^ 64 := by exact_mod_cast of_decide_eq_true h
  have within : (n : Int) ≤ Nat.pow 2 64 - 1 := Int.le_sub_one_of_lt below
  rw [Decoder.nat64, integer (Int.natCast_nonneg n) within room k deep same, Option.map_some,
    Int.toNat_natCast]

theorem word {words : List (String × α)} {s : String} {a : α} (h : words.lookup s = some a) :
    (Decoder.word words).Reads (.str s) a := by
  intro room k _ same
  obtain rfl := Json.str_readsAs same
  exact h

theorem nullable {j : Json} {a : α} (there : j ≠ .null) (reads : d.Reads j a) :
    (Decoder.nullable d).Reads j (some a) := by
  intro room k deep same
  have read : Decoder.nullable d room k = (d room k).map some := by
    cases k with
    | null => exact absurd (Json.readsAs_null same) there
    | _ => rfl
  rw [read, reads room k deep same, Option.map_some]

theorem list {l : List α} {f : α → Json} (reads : ∀ a ∈ l, d.Reads (f a) a) :
    (Decoder.list d).Reads (.array (l.map f)) l := by
  intro room k deep same
  obtain ⟨m, rfl, alike⟩ := Json.array_readsAs same
  cases room with
  | zero => cases deep
  | succ room =>
    rw [Json.depth, Nat.succ_le_succ_iff] at deep
    refine mapM_of_forall₂ alike fun a ha k _ same => reads a ha room k ?_ same
    exact (Json.depth_le_itemsDepth (List.mem_map_of_mem ha)).trans deep

theorem texts (l : List String) : (Decoder.list Decoder.text).Reads (.texts l) l :=
  list fun s _ => text s

theorem pair {j k : Json} {a b : α} (first : d.Reads j a) (second : d.Reads k b) :
    (Decoder.pair d).Reads (.array [j, k]) (a, b) := by
  intro room tree deep same
  obtain ⟨m, rfl, alike⟩ := Json.array_readsAs same
  obtain ⟨j', m, hj, others, rfl⟩ := List.forall₂_cons_left_iff.mp alike
  obtain ⟨k', m, hk, empty, rfl⟩ := List.forall₂_cons_left_iff.mp others
  obtain rfl := List.forall₂_nil_left_iff.mp empty
  cases room with
  | zero => cases deep
  | succ room =>
    rw [Json.depth, Nat.succ_le_succ_iff] at deep
    have within {i : Json} (hi : i ∈ [j, k]) : i.depth ≤ room :=
      (Json.depth_le_itemsDepth hi).trans deep
    rw [Decoder.pair, first room j' (within List.mem_cons_self) hj,
      second room k' (within (List.mem_cons_of_mem _ List.mem_cons_self)) hk]
    rfl

theorem map {l : List (String × α)} {f : α → Json} (sorted : SortedByKey l)
    (reads : ∀ m ∈ l, d.Reads (f m.2) m.2) :
    (Decoder.map d).Reads (.record (l.map fun m => (m.1, f m.2))) l := by
  intro room k deep same
  obtain ⟨m, rfl, alike⟩ := Json.record_readsAs same
  cases room with
  | zero => cases deep
  | succ room =>
    have each : m.mapM (fun m => (d room m.2).map fun v => (m.1, v)) = some l := by
      refine mapM_of_forall₂ alike fun e he k _ ⟨name, tree⟩ => ?_
      have inside := Json.depth_lt_record (List.mem_map_of_mem (f := fun m => (m.1, f m.2)) he)
      rw [reads e he room k.2 (Nat.le_of_lt_succ (inside.trans_le deep)) tree, ← name]
      rfl
    rw [Json.record, Decoder.map, Decoder.named_record, Option.bind_eq_bind, Option.bind_some, each]
    exact congrArg some sorted.sortedByKey_eq

/-- A decoder that makes something of what another one reads. -/
theorem map_some {j : Json} {a : α} {f : α → β} (reads : d.Reads j a) :
    Decoder.Reads (fun room j => (d room j).map f) j (f a) := by
  intro room k deep same
  exact congrArg (Option.map f) (reads room k deep same)

end Decoder.Reads

/-! ## Records -/

/-- The members of a record that are not left out. -/
def Json.parts (l : List (String × Option Json)) : List (String × Json) :=
  l.filterMap fun m => m.2.map (m.1, ·)

namespace Json

@[simp] theorem parts_nil : parts [] = [] := rfl

@[simp] theorem parts_cons_some (name : String) (j : Json) (l : List (String × Option Json)) :
    parts ((name, some j) :: l) = (name, j) :: parts l := rfl

@[simp] theorem parts_cons_map {α : Type} (name : String) (f : α → Json) (o : Option α)
    (l : List (String × Option Json)) :
    parts ((name, o.map f) :: l) = Json.optional name f o ++ parts l := by
  cases o <;> rfl

@[simp] theorem parts_cons_ite (name : String) (c : Prop) [Decidable c] (j : Json)
    (l : List (String × Option Json)) :
    parts ((name, if c then none else some j) :: l)
      = (if c then [] else [(name, j)]) ++ parts l := by
  split <;> rfl

theorem mem_parts {m : String × Json} {l : List (String × Option Json)} :
    m ∈ parts l ↔ (m.1, some m.2) ∈ l := by
  rw [parts, List.mem_filterMap]
  constructor
  · rintro ⟨a, ha, found⟩
    obtain ⟨j, hj, rfl⟩ := Option.map_eq_some_iff.mp found
    rw [← hj]
    exact ha
  · exact fun there => ⟨_, there, rfl⟩

theorem names_parts (l : List (String × Option Json)) :
    ((parts l).map Prod.fst).Sublist (l.map Prod.fst) := by
  induction l with
  | nil => exact .slnil
  | cons m l ih =>
    obtain ⟨name, _ | j⟩ := m
    · exact ih.cons _
    · exact ih.cons_cons _

theorem names_eq {l m : List (String × Json)} (same : List.Forall₂ MemberReadsAs l m) :
    m.map Prod.fst = l.map Prod.fst := by
  induction same with
  | nil => rfl
  | cons first _ ih => rw [List.map_cons, List.map_cons, ih, first.1]

theorem exists_member {l m : List (String × Json)} (same : List.Forall₂ MemberReadsAs l m)
    {a : String × Json} (ha : a ∈ l) : ∃ b ∈ m, MemberReadsAs a b := by
  induction same with
  | nil => cases ha
  | cons first _ ih =>
    rcases List.mem_cons.mp ha with rfl | there
    · exact ⟨_, List.mem_cons_self, first⟩
    · exact (ih there).imp fun b hb => ⟨List.mem_cons_of_mem _ hb.1, hb.2⟩

end Json

/-- Where names come once, a member is found under its name. -/
theorem lookup_of_mem {β : Type} {l : List (String × β)} {e : String × β}
    (once : (l.map Prod.fst).Nodup) (he : e ∈ l) : l.lookup e.1 = some e.2 := by
  obtain ⟨before, after, rfl⟩ := List.append_of_mem he
  refine List.lookup_eq_some_iff.mpr ⟨before, after, rfl, fun p hp => bne_iff_ne.mpr fun same => ?_⟩
  rw [List.map_append, List.map_cons] at once
  exact (List.nodup_append.mp once).2.2 _ (List.mem_map_of_mem hp) _ List.mem_cons_self same.symm

/-- An object is open for reading if its names are among those of the fields, each once. -/
theorem Fields.open?_record {names : List String} {l : List (String × Json)} (room : Nat)
    (known : ∀ m ∈ l, m.1 ∈ names) (once : (l.map Prod.fst).Nodup) :
    Fields.open? names (room + 1) (.record l) = some ⟨room, l⟩ := by
  have all : l.filter (fun m => names.contains m.1) = l :=
    List.filter_eq_self.mpr fun m hm => List.contains_iff_mem.mpr (known m hm)
  have single : (names.all fun n => (l.filter fun m => m.1 == n).length ≤ 1) = true := by
    refine List.all_eq_true.mpr fun n _ => decide_eq_true ?_
    rw [← List.countP_eq_length_filter]
    exact (List.countP_map (p := (· == n)) (f := Prod.fst) ▸ List.nodup_iff_count_le_one.mp once n)
  rw [Json.record, open?, Decoder.named_record, Option.bind_eq_bind, Option.bind_some]
  simp only [all, single, if_true]

/-- What there is to read under a name: nothing if the member was left out, else what its tree is
    read back as. -/
def Fields.Holds (fs : Fields) (name : String) : Option Json → Prop
  | none => fs.present.lookup name = none
  | some j => ∃ k, fs.present.lookup name = some k ∧ j.readsAs k = true ∧ j.depth ≤ fs.room

namespace Fields.Holds

variable {α : Type} {fs : Fields} {name : String} {j : Json} {d : Decoder α} {a default : α}

theorem read (h : fs.Holds name (some j)) (reads : d.Reads j a) :
    ∃ k, fs.present.lookup name = some k ∧ d fs.room k = some a := by
  obtain ⟨k, found, same, deep⟩ := h
  exact ⟨k, found, reads fs.room k deep same⟩

theorem required (h : fs.Holds name (some j)) (reads : d.Reads j a) :
    fs.required name d = some a := by
  obtain ⟨k, found, read⟩ := h.read reads
  rw [Fields.required, found]
  exact read

theorem withDefault (h : fs.Holds name (some j)) (reads : d.Reads j a) :
    fs.withDefault name d default = some a := by
  obtain ⟨k, found, read⟩ := h.read reads
  rw [Fields.withDefault, found]
  exact read

/-- A field whose default is left out. -/
theorem orDefault {c : Prop} [Decidable c] (h : fs.Holds name (if c then none else some j))
    (leftOut : c → a = default) (reads : d.Reads j a) : fs.withDefault name d default = some a := by
  split at h
  · rename_i hc
    rw [Fields.withDefault, h, leftOut hc]
  · exact h.withDefault reads

theorem optional {o : Option α} {f : α → Json} (h : fs.Holds name (o.map f))
    (there : ∀ a, o = some a → f a ≠ .null ∧ d.Reads (f a) a) : fs.optional name d = some o := by
  cases o with
  | none =>
    rw [Fields.optional, Fields.withDefault, h]
  | some a =>
    obtain ⟨there, reads⟩ := there a rfl
    exact Fields.Holds.withDefault h (.nullable there reads)

theorem optionalText {o : Option String} (h : fs.Holds name (o.map Json.str)) :
    fs.optional name Decoder.text = some o :=
  h.optional fun s _ => ⟨Json.noConfusion, .text s⟩

theorem optionalDouble {o : Option Float} (h : fs.Holds name (o.map Json.finite))
    (finite : ∀ x, o = some x → isFinite x = true) : fs.optional name Decoder.double = some o :=
  h.optional fun x hx => ⟨Json.finite_ne_null (finite x hx), .double (finite x hx)⟩

end Fields.Holds

/-- **A record is read if its fields are**, whatever they come back as. -/
theorem Decoder.Reads.record {α : Type} {names : List String} {body : Fields → Option α} {a : α}
    {l : List (String × Option Json)} (fields : l.map Prod.fst = names) (once : names.Nodup)
    (reads : ∀ fs : Fields, (∀ m ∈ l, fs.Holds m.1 m.2) → body fs = some a) :
    Decoder.Reads (fun room j => Fields.open? names room j >>= body) (.record (Json.parts l))
      a := by
  subst fields
  intro room k deep same
  obtain ⟨m, rfl, alike⟩ := Json.record_readsAs same
  cases room with
  | zero => cases deep
  | succ room =>
    have kept : (m.map Prod.fst).Sublist (l.map Prod.fst) :=
      Json.names_eq alike ▸ Json.names_parts l
    have distinct := kept.nodup once
    have opened :=
      Fields.open?_record room (fun e he => kept.subset (List.mem_map_of_mem he)) distinct
    show Fields.open? _ (room + 1) (.record m) >>= body = some a
    rw [opened]
    refine reads _ fun e he => ?_
    obtain ⟨name, _ | j⟩ := e
    · refine List.lookup_eq_none_iff.mpr fun p hp => bne_iff_ne.mpr fun same => ?_
      have there : p.1 ∈ (Json.parts l).map Prod.fst :=
        Json.names_eq alike ▸ List.mem_map_of_mem hp
      obtain ⟨q, hq, named⟩ := List.mem_map.mp there
      cases List.inj_on_of_nodup_map once he (Json.mem_parts.mp hq) (same.trans named.symm)
    · have there : (name, j) ∈ Json.parts l := Json.mem_parts.mpr he
      obtain ⟨p, hp, named, same⟩ := Json.exists_member alike there
      refine ⟨p.2, ?_, same, Nat.le_of_lt_succ ((Json.depth_lt_record there).trans_le deep)⟩
      rw [show name = p.1 from named]
      exact lookup_of_mem distinct hp

end BlockStage
