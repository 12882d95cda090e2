/-
  Scenes read back.

  1. **Specification (`Scene.isSavable`)** — a scene can be saved if all its numbers are finite,
     those in the programs too, and depths and costume numbers are within 32 and 64 bits.

  2. **The result (`Scene.reads`)** — one lemma for each kind of record, by the members it is
     written as.  What a member is left out for is what its field has without one.
-/
import BlockStage.Proofs.Block.ReadBack
import BlockStage.Scene

namespace BlockStage

/-! ## Costumes -/

namespace PixelBounds

/-- Can a rectangle be saved? -/
def isSavable (b : PixelBounds Float32) : Bool :=
  Single.finite b.x && Single.finite b.y && Single.finite b.width && Single.finite b.height

theorem toJson_eq (b : PixelBounds Float32) :
    b.toJson = .record (Json.parts
      [("x", some (.finiteSingle b.x)), ("y", some (.finiteSingle b.y)),
        ("width", some (.finiteSingle b.width)), ("height", some (.finiteSingle b.height))]) := rfl

theorem reads {b : PixelBounds Float32} (savable : b.isSavable = true) :
    decode.Reads b.toJson b := by
  simp only [isSavable, Bool.and_eq_true, and_assoc] at savable
  obtain ⟨finiteX, finiteY, finiteWidth, finiteHeight⟩ := savable
  rw [toJson_eq]
  refine .record rfl (by decide) fun fs holds => ?_
  simp only [List.forall_mem_cons] at holds
  obtain ⟨x, y, width, height, -⟩ := holds
  rw [x.required (.single finiteX), y.required (.single finiteY),
    width.required (.single finiteWidth), height.required (.single finiteHeight)]
  rfl

end PixelBounds

namespace Costume

/-- Can a costume be saved? -/
def isSavable (c : Costume Float32) : Bool :=
  Single.finite c.width && Single.finite c.height && c.bounds.all PixelBounds.isSavable

theorem toJson_eq (c : Costume Float32) :
    c.toJson = .record (Json.parts
      [("id", some (.str c.id)), ("name", some (.str c.name)), ("image", some (.str c.image)),
        ("width", some (.finiteSingle c.width)), ("height", some (.finiteSingle c.height)),
        ("bounds", c.bounds.map PixelBounds.toJson)]) := by
  simp only [toJson, Json.parts_cons_some, Json.parts_cons_map, Json.parts_nil, List.cons_append,
    List.nil_append, List.append_nil]

theorem reads {c : Costume Float32} (savable : c.isSavable = true) : decode.Reads c.toJson c := by
  simp only [isSavable, Bool.and_eq_true, and_assoc, Option.all_eq_true] at savable
  obtain ⟨finiteWidth, finiteHeight, within⟩ := savable
  rw [toJson_eq]
  refine .record rfl (by decide) fun fs holds => ?_
  simp only [List.forall_mem_cons] at holds
  obtain ⟨id, name, image, width, height, bounds, -⟩ := holds
  rw [id.required (.text _), name.withDefault (.text _), image.withDefault (.text _),
    width.withDefault (.single finiteWidth), height.withDefault (.single finiteHeight),
    bounds.optional fun b hb => ⟨Json.record_ne_null _, PixelBounds.reads (within b hb)⟩]
  rfl

end Costume

/-! ## Bodies, sounds and variables -/

namespace BodySettings

/-- Can settings be saved? -/
def isSavable (b : BodySettings Float32) : Bool :=
  Single.finite b.gravityScale && Single.finite b.restitution && Single.finite b.friction

theorem toJson_eq (b : BodySettings Float32) :
    b.toJson = .record (Json.parts
      [("gravity_scale", some (.finiteSingle b.gravityScale)),
        ("use_world_gravity", some (.bool b.useWorldGravity)),
        ("fixed_rotation", some (.bool b.fixedRotation)),
        ("restitution", some (.finiteSingle b.restitution)),
        ("friction", some (.finiteSingle b.friction))]) := rfl

theorem reads {b : BodySettings Float32} (savable : b.isSavable = true) :
    decode.Reads b.toJson b := by
  simp only [isSavable, Bool.and_eq_true, and_assoc] at savable
  obtain ⟨finiteScale, finiteRestitution, finiteFriction⟩ := savable
  rw [toJson_eq]
  refine .record rfl (by decide) fun fs holds => ?_
  simp only [List.forall_mem_cons] at holds
  obtain ⟨gravityScale, useWorldGravity, fixedRotation, restitution, friction, -⟩ := holds
  dsimp only
  rw [gravityScale.withDefault (.single finiteScale), useWorldGravity.withDefault (.bool _),
    fixedRotation.withDefault (.bool _), restitution.withDefault (.single finiteRestitution),
    friction.withDefault (.single finiteFriction)]
  rfl

end BodySettings

namespace Sound

/-- Can a sound be saved? -/
def isSavable (s : Sound) : Bool :=
  s.duration.all isFinite && s.trimStart.all isFinite && s.trimEnd.all isFinite

theorem toJson_eq (s : Sound) :
    s.toJson = .record (Json.parts
      [("id", some (.str s.id)), ("name", some (.str s.name)), ("source", some (.str s.source)),
        ("duration", s.duration.map Json.finite), ("trim_start", s.trimStart.map Json.finite),
        ("trim_end", s.trimEnd.map Json.finite)]) := by
  simp only [toJson, Json.parts_cons_some, Json.parts_cons_map, Json.parts_nil, List.cons_append,
    List.nil_append, List.append_nil, List.append_assoc]

theorem reads {s : Sound} (savable : s.isSavable = true) : decode.Reads s.toJson s := by
  simp only [isSavable, Bool.and_eq_true, and_assoc, Option.all_eq_true] at savable
  obtain ⟨finiteDuration, finiteStart, finiteEnd⟩ := savable
  rw [toJson_eq]
  refine .record rfl (by decide) fun fs holds => ?_
  simp only [List.forall_mem_cons] at holds
  obtain ⟨id, name, source, duration, trimStart, trimEnd, -⟩ := holds
  rw [id.required (.text _), name.withDefault (.text _), source.withDefault (.text _),
    duration.optionalDouble finiteDuration, trimStart.optionalDouble finiteStart,
    trimEnd.optionalDouble finiteEnd]
  rfl

end Sound

theorem VariableType.lookup_word (t : VariableType) : words.lookup t.word = some t := by
  cases t <;> rfl

theorem VariableScope.lookup_word (s : VariableScope) : words.lookup s.word = some s := by
  cases s <;> rfl

namespace VariableDefinition

/-- Can a definition be saved? -/
def isSavable (d : VariableDefinition) : Bool := d.default.isSavable

theorem toJson_eq (d : VariableDefinition) :
    d.toJson = .record (Json.parts
      [("id", some (.str d.id)), ("name", some (.str d.name)), ("type", some (.str d.type.word)),
        ("scope", some (.str d.scope.word)), ("default", some d.default.toJson)]) := rfl

theorem reads {d : VariableDefinition} (savable : d.isSavable = true) :
    decode.Reads d.toJson d := by
  rw [toJson_eq]
  refine .record rfl (by decide) fun fs holds => ?_
  simp only [List.forall_mem_cons] at holds
  obtain ⟨id, name, type, scope, default, -⟩ := holds
  rw [id.required (.text _), name.required (.text _),
    type.withDefault (.word (VariableType.lookup_word _)),
    scope.withDefault (.word (VariableScope.lookup_word _)),
    default.withDefault (Value.reads savable)]
  rfl

end VariableDefinition

/-! ## Entities -/

namespace EntityDescription

/-- Can an entity be saved? -/
def isSavable (e : EntityDescription) : Bool :=
  Single.finite e.x && Single.finite e.y && Single.finite e.rotation && Single.finite e.scale
    && isInt32 e.depth && e.size.all (fun p => Single.finite p.1 && Single.finite p.2)
    && isNat64 e.costume && e.physics.all BodySettings.isSavable && e.program.isSavable

theorem toJson_eq (e : EntityDescription) :
    e.toJson = .record (Json.parts
      [("id", some (.str e.id)), ("name", e.name.map Json.str), ("x", some (.finiteSingle e.x)),
        ("y", some (.finiteSingle e.y)), ("rotation", some (.finiteSingle e.rotation)),
        ("scale", some (.finiteSingle e.scale)), ("visible", some (.bool e.visible)),
        ("depth", some (.int e.depth)),
        ("size", e.size.map fun p => .array [.finiteSingle p.1, .finiteSingle p.2]),
        ("costumes", some (.texts e.costumes)), ("costume", some (.nat e.costume)),
        ("component", e.component.map Json.str), ("physics", e.physics.map BodySettings.toJson),
        ("program", some (Program.toJson e.program))]) := by
  simp only [toJson, Json.parts_cons_some, Json.parts_cons_map, Json.parts_nil, List.cons_append,
    List.nil_append, List.append_assoc]

theorem reads {e : EntityDescription} (savable : e.isSavable = true) : decode.Reads e.toJson e := by
  simp only [isSavable, Bool.and_eq_true, and_assoc, Option.all_eq_true] at savable
  obtain ⟨finiteX, finiteY, finiteRotation, finiteScale, depthFits, finiteSize, costumeFits,
    settings, blocks⟩ := savable
  rw [toJson_eq]
  refine .record rfl (by decide) fun fs holds => ?_
  simp only [List.forall_mem_cons] at holds
  obtain ⟨id, name, x, y, rotation, scale, visible, depth, size, costumes, costume, component,
    physics, program, -⟩ := holds
  rw [id.required (.text _), name.optionalText,
    x.withDefault (.single finiteX), y.withDefault (.single finiteY),
    rotation.withDefault (.single finiteRotation), scale.withDefault (.single finiteScale),
    visible.withDefault (.bool _), depth.withDefault (.int32 depthFits),
    size.optional fun p hp =>
      ⟨Json.array_ne_null _, .pair (.single (finiteSize p hp).1) (.single (finiteSize p hp).2)⟩,
    costumes.withDefault (.texts _), costume.withDefault (.nat64 costumeFits),
    component.optionalText,
    physics.optional fun b hb => ⟨Json.record_ne_null _, BodySettings.reads (settings b hb)⟩,
    program.withDefault (Program.reads blocks)]
  rfl

end EntityDescription

/-! ## Scenes -/

namespace Scene

/-- Can a scene be saved? -/
def isSavable (s : Scene) : Bool :=
  s.definitions.all VariableDefinition.isSavable && s.costumes.all Costume.isSavable
    && s.sounds.all Sound.isSavable && s.entities.all EntityDescription.isSavable

theorem toJson_eq (s : Scene) :
    s.toJson = .record (Json.parts
      [("name", some (.str s.name)),
        ("variables", some (.array (s.definitions.map VariableDefinition.toJson))),
        ("costumes", some (.array (s.costumes.map Costume.toJson))),
        ("sounds", some (.array (s.sounds.map Sound.toJson))),
        ("entities", some (.array (s.entities.map EntityDescription.toJson)))]) := rfl

/-- **A scene is read back.** -/
theorem reads {s : Scene} (savable : s.isSavable = true) : decode.Reads s.toJson s := by
  simp only [isSavable, Bool.and_eq_true, and_assoc, List.all_eq_true] at savable
  obtain ⟨savableDefinitions, savableCostumes, savableSounds, savableEntities⟩ := savable
  rw [toJson_eq]
  refine .record rfl (by decide) fun fs holds => ?_
  simp only [List.forall_mem_cons] at holds
  obtain ⟨name, definitions, costumes, sounds, entities, -⟩ := holds
  rw [name.withDefault (.text _),
    definitions.withDefault (.list fun d hd => VariableDefinition.reads (savableDefinitions d hd)),
    costumes.withDefault (.list fun c hc => Costume.reads (savableCostumes c hc)),
    sounds.withDefault (.list fun s hs => Sound.reads (savableSounds s hs)),
    entities.withDefault (.list fun e he => EntityDescription.reads (savableEntities e he))]
  rfl

end Scene

end BlockStage
