/-
  Records read back, and what is saved as a whole.

  1. **Specification (`Record.isSavable`)** — a record can be saved if all its numbers are finite,
     and its counts and depths within 64 and 32 bits.

  2. **The crux (`StepRecord.reads`)** — a count of nought, an empty list and what is absent are
     left out, and each is what its field is without a member.

  3. **The result (`TextLayer.loads_what_it_saved`)** — through any layer of text that reads back
     the tree it wrote, programs, scenes and records come back as they were, and a record that was
     saved and loaded again shows no difference.
-/
import BlockStage.Proofs.Fixture.Golden
import BlockStage.Proofs.Scene.ReadBack

namespace BlockStage

/-! ## Snapshots -/

theorem Vec.reads {v : Vec Float32} (x : Single.finite v.x = true) (y : Single.finite v.y = true) :
    Vec.decode.Reads v.toJson v :=
  .map_some (.pair (.single x) (.single y))

namespace Snapshot

/-- Can a snapshot be saved? -/
def isSavable (s : Snapshot Float32) : Bool :=
  Single.finite s.x && Single.finite s.y && Single.finite s.rotation && Single.finite s.scale.x
    && Single.finite s.scale.y && isInt32 s.depth

theorem toJson_eq (s : Snapshot Float32) :
    s.toJson = .record (Json.parts
      [("id", some (.str s.id)), ("x", some (.finiteSingle s.x)), ("y", some (.finiteSingle s.y)),
        ("rotation", some (.finiteSingle s.rotation)), ("scale", some s.scale.toJson),
        ("visible", some (.bool s.visible)), ("depth", some (.int s.depth)),
        ("costume", s.costume.map Json.str), ("parent", s.parent.map Json.str),
        ("original", s.prototype.map Json.str), ("stopped", some (.bool s.stopped)),
        ("has_body", some (.bool s.hasBody))]) := by
  simp only [toJson, Json.parts_cons_some, Json.parts_cons_map, Json.parts_nil, List.cons_append,
    List.nil_append, List.append_assoc]

theorem reads {s : Snapshot Float32} (savable : s.isSavable = true) : decode.Reads s.toJson s := by
  simp only [isSavable, Bool.and_eq_true, and_assoc] at savable
  obtain ⟨finiteX, finiteY, finiteRotation, finiteAcross, finiteAlong, depthFits⟩ := savable
  rw [toJson_eq]
  refine .record rfl (by decide) fun fs holds => ?_
  simp only [List.forall_mem_cons] at holds
  obtain ⟨id, x, y, rotation, scale, visible, depth, costume, parent, prototype, stopped, hasBody,
    -⟩ := holds
  rw [id.required (.text _), x.required (.single finiteX), y.required (.single finiteY),
    rotation.required (.single finiteRotation), scale.required (Vec.reads finiteAcross finiteAlong),
    visible.required (.bool _), depth.required (.int32 depthFits), costume.optionalText,
    parent.optionalText, prototype.optionalText, stopped.required (.bool _),
    hasBody.required (.bool _)]
  rfl

end Snapshot

/-! ## Steps -/

namespace StepRecord

/-- Can a step be saved? -/
def isSavable (r : StepRecord) : Bool := isNat64 r.step && isNat64 r.errors

/-- A list as a member, unless it is empty. -/
def textsMember (l : List String) : Option Json := if l.isEmpty then none else some (.texts l)

theorem toJson_eq (r : StepRecord) :
    r.toJson = .record (Json.parts
      [("step", some (.nat r.step)), ("logs", some (.texts r.lines)),
        ("errors", if r.errors = 0 then none else some (.nat r.errors)),
        ("events", textsMember r.events), ("sounds", textsMember r.sounds),
        ("clicked", r.clicked.map Json.str), ("scene_switch", r.sceneSwitch.map Json.str)]) := by
  simp only [toJson, unlessEmpty, textsMember, Json.parts_cons_some, Json.parts_cons_ite,
    Json.parts_cons_map, Json.parts_nil, List.cons_append, List.nil_append, List.append_nil,
    List.append_assoc]

theorem texts_read {fs : Fields} {name : String} {l : List String}
    (h : fs.Holds name (textsMember l)) :
    fs.withDefault name (Decoder.list Decoder.text) [] = some l :=
  h.orDefault List.isEmpty_iff.mp (.texts l)

/-- **A step is read back.** -/
theorem reads {r : StepRecord} (savable : r.isSavable = true) : decode.Reads r.toJson r := by
  obtain ⟨stepFits, errorsFit⟩ := Bool.and_eq_true_iff.mp savable
  rw [toJson_eq]
  refine .record rfl (by decide) fun fs holds => ?_
  simp only [List.forall_mem_cons] at holds
  obtain ⟨step, lines, errors, events, sounds, clicked, sceneSwitch, -⟩ := holds
  rw [step.required (.nat64 stepFits), lines.required (.texts _),
    errors.orDefault id (.nat64 errorsFit), texts_read events, texts_read sounds,
    clicked.optionalText, sceneSwitch.optionalText]
  rfl

end StepRecord

/-! ## Records -/

theorem Single.isNaN_of_finite {x : Float32} (h : Single.finite x = true) : x.isNaN = false := by
  obtain ⟨n, m, e, exact⟩ := finite_iff.mp h
  have number : x.toModel.unpack ≠ .notANumber := by
    intro nan
    rw [exactOfSingle_eq, nan] at exact
    cases exact
  rw [Ne, ← Float.Model.UnpackedFloat.isNaN_iff] at number
  exact Bool.eq_false_iff.mpr number

theorem Snapshot.isNumeric_of_isSavable {s : Snapshot Float32} (h : s.isSavable = true) :
    s.isNumeric = true := by
  simp only [isSavable, Bool.and_eq_true, and_assoc] at h
  obtain ⟨x, y, rotation, across, along, -⟩ := h
  simp only [isNumeric, Single.isNaN_of_finite x, Single.isNaN_of_finite y,
    Single.isNaN_of_finite rotation, Single.isNaN_of_finite across, Single.isNaN_of_finite along,
    Bool.not_false, Bool.and_self]

namespace Record

/-- Can a record be saved? -/
def isSavable (r : Record) : Bool :=
  isNat64 r.steps && Single.finite r.frameTime && r.results.all StepRecord.isSavable
    && r.finalEntities.all Snapshot.isSavable

theorem toJson_eq (r : Record) :
    r.toJson = .record (Json.parts
      [("scene", some (.str r.scene)), ("steps", some (.nat r.steps)),
        ("dt", some (.finiteSingle r.frameTime)), ("startup", some (.texts r.startup)),
        ("results", some (.array (r.results.map StepRecord.toJson))),
        ("final_entities", some (.array (r.finalEntities.map Snapshot.toJson)))]) := rfl

/-- **A record is read back.** -/
theorem reads {r : Record} (savable : r.isSavable = true) : decode.Reads r.toJson r := by
  simp only [isSavable, Bool.and_eq_true, and_assoc, List.all_eq_true] at savable
  obtain ⟨stepsFit, finiteTime, savableSteps, savableEntities⟩ := savable
  rw [toJson_eq]
  refine .record rfl (by decide) fun fs holds => ?_
  simp only [List.forall_mem_cons] at holds
  obtain ⟨scene, steps, frameTime, startup, results, finalEntities, -⟩ := holds
  rw [scene.required (.text _), steps.required (.nat64 stepsFit),
    frameTime.required (.single finiteTime), startup.required (.texts _),
    results.required (.list fun s hs => StepRecord.reads (savableSteps s hs)),
    finalEntities.required (.list fun e he => Snapshot.reads (savableEntities e he))]
  rfl

/-- The text of a record is read as that record, if its tree comes back from the text. -/
theorem parse?_render {r : Record} (savable : r.isSavable = true)
    (back : TextLayer.plain.ReadsBack r.toJson) (deep : r.toJson.depth ≤ nestingLimit) :
    parse? r.render = some r := by
  have text : r.render = TextLayer.plain.write r.toJson := by rw [render, TextLayer.plain]
  rw [parse?, text, ← TextLayer.load_plain, TextLayer.load_write (reads savable) back deep]

theorem isNumeric_of_isSavable {r : Record} (h : r.isSavable = true) : r.isNumeric = true := by
  simp only [isSavable, Bool.and_eq_true, and_assoc, List.all_eq_true] at h
  obtain ⟨-, frameTime, -, entities⟩ := h
  rw [isNumeric, Single.isNaN_of_finite frameTime]
  exact List.all_eq_true.mpr fun e he => Snapshot.isNumeric_of_isSavable (entities e he)

/-- A record that can be saved shows no difference from itself. -/
theorem firstDifference?_self {r : Record} (h : r.isSavable = true) : r.firstDifference? r = none :=
  firstDifference?_eq_none_iff.mpr
    (equals_iff_matches.mp (equals_self (isNumeric_of_isSavable h))).1

end Record

/-! ## The result -/

namespace TextLayer

/-- **What was saved is loaded again**, through any layer of text that reads back the tree it wrote:
    a program, a scene, and a record, which then shows no difference from the loaded one. -/
theorem loads_what_it_saved (T : TextLayer) (room : Nat) :
    (∀ p : Program, p.isSavable = true → T.ReadsBack p.toJson → p.toJson.depth ≤ room →
      T.load Program.decode room (T.write p.toJson) = some p) ∧
    (∀ s : Scene, s.isSavable = true → T.ReadsBack s.toJson → s.toJson.depth ≤ room →
      T.load Scene.decode room (T.write s.toJson) = some s) ∧
    (∀ r : Record, r.isSavable = true → T.ReadsBack r.toJson → r.toJson.depth ≤ room →
      T.load Record.decode room (T.write r.toJson) = some r ∧
        (T.load Record.decode room (T.write r.toJson)).map r.firstDifference? = some none) := by
  refine ⟨fun p savable back deep => load_write (Program.reads savable) back deep,
    fun s savable back deep => load_write (Scene.reads savable) back deep,
    fun r savable back deep => ?_⟩
  have loaded := load_write (Record.reads savable) back deep
  refine ⟨loaded, ?_⟩
  rw [loaded, Option.map_some, Record.firstDifference?_self savable]

/-- A greeting, said to the pointer when the scene starts. -/
def greeting : Program :=
  [.mk "on" [] []
    [("DO",
      [.mk "say" [("A", .bool true), ("B", .null), ("C", .text "\"\n"), ("D", .number 1.5)]
        [("TO", .mk "pointer" [] [] [])] []])]]

/-- A scene with somebody who greets. -/
def meeting : Scene where
  name := ""
  definitions := []
  costumes := []
  sounds := [⟨"b", "", "", some 0.5, none, none⟩]
  entities :=
    [{ id := "e", name := none, x := -3, y := 0.5, rotation := 90, scale := 2, visible := false
       depth := -1, size := some (8, 16), costumes := [], costume := 0, component := some "k"
       physics := none, program := [.mk "on" [] [] []] }]

/-- What may come of that. -/
def outcome : Record where
  scene := ""
  steps := 1
  frameTime := 0.5
  startup := ["on"]
  results := [⟨0, ["failed"], 1, [], ["b"], none, some "two"⟩]
  finalEntities := [⟨"e", -3, 0.5, 90, ⟨2, 2⟩, false, -1, none, none, none, true, false⟩]

theorem plain_loads_what_it_saved :
    plain.load Program.decode nestingLimit (plain.write greeting.toJson) = some greeting ∧
      plain.load Scene.decode nestingLimit (plain.write meeting.toJson) = some meeting ∧
      plain.load Record.decode nestingLimit (plain.write outcome.toJson) = some outcome ∧
      (plain.load Record.decode nestingLimit (plain.write outcome.toJson)).map
        outcome.firstDifference? = some none :=
  have ⟨programs, scenes, records⟩ := loads_what_it_saved plain nestingLimit
  ⟨programs greeting (by decide +kernel) (by decide +kernel) (by decide +kernel),
    scenes meeting (by decide +kernel) (by decide +kernel) (by decide +kernel),
    records outcome (by decide +kernel) (by decide +kernel) (by decide +kernel)⟩

end TextLayer

end BlockStage
