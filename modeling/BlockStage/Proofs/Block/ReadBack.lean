/-
  Programs read back.

  1. **Specification (`Program.isSavable`)** — a program can be saved if no number in it is infinite
     or not-a-number.  Its maps are in the order of their keys, as maps are.

  2. **The crux (`Block.decode_eq`)** — a block is read with less room than the one that it is in.
     The check of that bounds the recursion and is never what makes reading fail, since the maps
     and lists around a block take room themselves.

  3. **The result (`Program.reads`)** — by induction over blocks.  An empty map is left out, and a
     map that is missing is read as an empty one.
-/
import BlockStage.Proofs.Json.ReadBack

namespace BlockStage

/-! ## Specification -/

instance {β : Type} (l : List (String × β)) : Decidable (SortedByKey l) :=
  inferInstanceAs (Decidable (l.Pairwise _))

/-- Can a value be saved?  A number that is not finite cannot. -/
def Value.isSavable : Value → Bool
  | .number n => isFinite n
  | _ => true

/-- Can a block be saved, apart from the blocks inside? -/
def Block.isSavable (b : Block) : Bool :=
  decide (SortedByKey b.fields) && decide (SortedByKey b.inputs)
    && decide (SortedByKey b.statements) && b.fields.all fun e => e.2.isSavable

/-- Can a program be saved, with all its blocks? -/
def Program.isSavable (p : Program) : Bool := p.walk.all Block.isSavable

/-! ## Values -/

theorem Value.reads {v : Value} (savable : v.isSavable = true) : Value.decode.Reads v.toJson v := by
  intro room k deep same
  cases v with
  | null =>
    cases k <;> first | rfl | cases same
  | bool b =>
    obtain rfl := Json.bool_readsAs same
    rfl
  | number n =>
    have read := Decoder.Reads.double savable room k deep same
    rw [toJson, Json.finite_eq savable] at same
    obtain rfl | ⟨i, rfl, -, -⟩ := Json.real_readsAs same
    · rw [decode, read, Option.map_some]
    · rw [decode, read, Option.map_some]
  | text s =>
    obtain rfl := Json.str_readsAs same
    rfl

/-! ## Room -/

theorem Fields.room_of_open? {names : List String} {room : Nat} {j : Json} {fs : Fields}
    (h : Fields.open? names room j = some fs) : fs.room < room := by
  rw [open?.eq_def] at h
  split at h
  · obtain ⟨all, -, h⟩ := Option.bind_eq_some_iff.mp h
    obtain ⟨-, h⟩ := Option.ite_none_right_eq_some.mp h
    obtain rfl := Option.some.inj h
    exact Nat.lt_succ_self _
  · obtain ⟨-, h⟩ := Option.ite_none_right_eq_some.mp h
    obtain rfl := Option.some.inj h
    exact Nat.lt_succ_self _
  · cases h

namespace Decoder

variable {α : Type} {d e : Decoder α} {room : Nat}

theorem list_congr (same : ∀ r < room, d r = e r) : Decoder.list d room = Decoder.list e room := by
  cases room with
  | zero => rfl
  | succ room =>
    funext j
    cases j <;> first | rfl | rw [list, list, same room (Nat.lt_succ_self room)]

theorem map_congr (same : ∀ r < room, d r = e r) : Decoder.map d room = Decoder.map e room := by
  cases room with
  | zero => rfl
  | succ room =>
    funext j
    cases j <;> first | rfl | rw [map, map, same room (Nat.lt_succ_self room)]

end Decoder

theorem Fields.withDefault_congr {α : Type} {fs : Fields} {d e : Decoder α}
    (same : d fs.room = e fs.room) (name : String) (default : α) :
    fs.withDefault name d default = fs.withDefault name e default := by
  rw [withDefault, withDefault, same]

/-! ## Blocks -/

namespace Block

/-- A block from its fields. -/
def ofFields (fs : Fields) : Option Block := do
  some (.mk (← fs.required "type" Decoder.text)
    (← fs.withDefault "fields" (Decoder.map Value.decode) [])
    (← fs.withDefault "inputs" (Decoder.map decode) [])
    (← fs.withDefault "statements" (Decoder.map (Decoder.list decode)) []))

/-- A block is read without regard to the room that the blocks inside are given. -/
theorem decode_eq : decode = fun room j => Fields.open? fieldNames room j >>= ofFields := by
  funext room j
  rw [decode]
  cases opened : Fields.open? fieldNames room j with
  | none => rfl
  | some fs =>
    have less : fs.room < room := Fields.room_of_open? opened
    have inner (r : Nat) (hr : r < fs.room) :
        (fun j => if _h : r < room then decode r j else none) = decode r :=
      funext fun j => dif_pos (hr.trans less)
    rw [Option.bind_eq_bind, Option.bind_some, Option.bind_eq_bind, Option.bind_some, ofFields]
    dsimp only
    rw [Fields.withDefault_congr (Decoder.map_congr inner),
      Fields.withDefault_congr (Decoder.map_congr fun r hr =>
        Decoder.list_congr fun r' hr' => inner r' (hr'.trans hr))]
    rfl

/-- The members of a map, unless it is empty. -/
def mapMember (members : List (String × Json)) : Option Json :=
  if members.isEmpty then none else some (.record members)

/-- The members of a block as data. -/
def members : Block → List (String × Option Json)
  | .mk t f i s =>
    [("type", some (.str t)),
      ("fields", mapMember (f.map fun e => (e.1, e.2.toJson))),
      ("inputs", mapMember (i.map fun e => (e.1, e.2.toJson))),
      ("statements", mapMember (s.map fun e => (e.1, .array (e.2.map toJson))))]

theorem listToJson_eq (l : List Block) : listToJson l = l.map toJson := by
  induction l with
  | nil => rfl
  | cons b rest ih => rw [listToJson, ih, List.map_cons]

theorem inputsToJson_eq (inputs : List (String × Block)) :
    inputsToJson inputs = inputs.map fun e => (e.1, e.2.toJson) := by
  induction inputs with
  | nil => rfl
  | cons e rest ih => rw [inputsToJson, ih, List.map_cons]

theorem bodiesToJson_eq (statements : List (String × List Block)) :
    bodiesToJson statements = statements.map fun e => (e.1, .array (e.2.map toJson)) := by
  induction statements with
  | nil => rfl
  | cons e rest ih => rw [bodiesToJson, ih, List.map_cons, listToJson_eq]

theorem toJson_eq (b : Block) : b.toJson = .record (Json.parts b.members) := by
  obtain ⟨type, fields, inputs, statements⟩ := b
  simp only [toJson, inputsToJson_eq, bodiesToJson_eq, unlessEmpty, members, mapMember,
    Json.parts_cons_some, Json.parts_cons_ite, Json.parts_nil, List.append_assoc, List.append_nil]

/-- A map of a block is read, be it empty or not. -/
theorem map_read {α : Type} {d : Decoder α} {fs : Fields} {name : String} {l : List (String × α)}
    {f : α → Json} (h : fs.Holds name (mapMember (l.map fun e => (e.1, f e.2))))
    (sorted : SortedByKey l) (reads : ∀ e ∈ l, d.Reads (f e.2) e.2) :
    fs.withDefault name (Decoder.map d) [] = some l :=
  h.orDefault (fun empty => List.map_eq_nil_iff.mp (List.isEmpty_iff.mp empty)) (.map sorted reads)

mutual

/-- **A block is read back**, with all that is in it. -/
theorem reads : ∀ b : Block, (∀ c ∈ b.walk, c.isSavable = true) → Decoder.Reads decode b.toJson b
  | .mk type fields inputs statements, savable => by
    have own : (mk type fields inputs statements).isSavable = true := savable _ List.mem_cons_self
    simp only [isSavable, Bool.and_eq_true, and_assoc, decide_eq_true_eq, List.all_eq_true] at own
    obtain ⟨sortedFields, sortedInputs, sortedStatements, values⟩ := own
    have inside := fun c (hc : c ∈ inputWalk inputs ++ bodyWalk statements) =>
      savable c (List.mem_cons_of_mem _ hc)
    rw [decode_eq, toJson_eq]
    refine Decoder.Reads.record rfl (by decide) fun fs holds => ?_
    simp only [members, List.forall_mem_cons] at holds
    obtain ⟨ofType, ofLeaves, ofInputs, ofStatements, -⟩ := holds
    rw [ofFields, ofType.required (.text _), map_read ofLeaves sortedFields fun e he =>
        Value.reads (values e he),
      map_read ofInputs sortedInputs (reads_inputs inputs fun c hc =>
        inside c (List.mem_append_left _ hc)),
      map_read (l := statements) (f := fun body => .array (body.map toJson)) ofStatements
        sortedStatements (reads_bodies statements fun c hc =>
          inside c (List.mem_append_right _ hc))]
    rfl

theorem reads_inputs : ∀ inputs : List (String × Block),
    (∀ c ∈ inputWalk inputs, c.isSavable = true) →
      ∀ e ∈ inputs, Decoder.Reads decode e.2.toJson e.2
  | [], _ => List.forall_mem_nil _
  | (_, b) :: rest, savable =>
    List.forall_mem_cons.mpr
      ⟨reads b fun c hc => savable c (List.mem_append_left _ hc),
        reads_inputs rest fun c hc => savable c (List.mem_append_right _ hc)⟩

theorem reads_bodies : ∀ statements : List (String × List Block),
    (∀ c ∈ bodyWalk statements, c.isSavable = true) →
      ∀ e ∈ statements, (Decoder.list decode).Reads (.array (e.2.map toJson)) e.2
  | [], _ => List.forall_mem_nil _
  | (_, l) :: rest, savable =>
    List.forall_mem_cons.mpr
      ⟨.list (reads_list l fun c hc => savable c (List.mem_append_left _ hc)),
        reads_bodies rest fun c hc => savable c (List.mem_append_right _ hc)⟩

theorem reads_list : ∀ l : List Block,
    (∀ c ∈ listWalk l, c.isSavable = true) → ∀ b ∈ l, Decoder.Reads decode b.toJson b
  | [], _ => List.forall_mem_nil _
  | b :: rest, savable =>
    List.forall_mem_cons.mpr
      ⟨reads b fun c hc => savable c (List.mem_append_left _ hc),
        reads_list rest fun c hc => savable c (List.mem_append_right _ hc)⟩

end

end Block

/-- **A program is read back.** -/
theorem Program.reads {p : Program} (savable : p.isSavable = true) :
    Program.decode.Reads p.toJson p := by
  rw [toJson, Block.listToJson_eq]
  exact .list (Block.reads_list p (List.all_eq_true.mp savable))

end BlockStage
