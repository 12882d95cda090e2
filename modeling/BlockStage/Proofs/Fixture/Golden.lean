/-
  Golden records: what it means that a record shows no difference from an expected one.

  1. **Specification (`Record.equals`)** — two records are equal if they are so field by field, lists
     having the same length, and numbers being compared as numbers.

  2. **The crux (`find?_zip_eq_none_iff`)** — the walk over two lists of steps side by side ends with
     the shorter one.  It finds nothing exactly if one of them is a prefix of the other.

  3. **The result (`Record.equals_iff`)** — no difference tells that two records are equal but for
     steps that only one of them has.  A run makes a record of as many steps as its header says
     (`Fixture.steps_of_run`), so what escapes a comparison with the record of a run are expected
     records whose steps are not as many as their own header says (`Fixture.equals_iff_of_run`).
-/
import BlockStage.Fixture.Run
import BlockStage.Proofs.Number.Order
import BlockStage.Proofs.Session.Pausing

namespace BlockStage

/-! ## Numbers -/

theorem Single.beq_iff {x y : Float32} :
    (x == y) = true ↔ x.toModel.unpack.compare y.toModel.unpack = some .eq := by
  show Float32.beq x y = true ↔ _
  rw [Float32.beq]
  exact beq_iff_eq (α := Option Ordering)

theorem Single.beq_self {x : Float32} (h : x.isNaN = false) : (x == x) = true := by
  have number : x.toModel.unpack ≠ .notANumber := by
    rw [Ne, ← Float.Model.UnpackedFloat.isNaN_iff]
    exact Bool.eq_false_iff.mp h
  rw [beq_iff]
  exact Unpacked.compare_self number

/-! ## Walking side by side -/

/-- **Two lists agree side by side exactly if one of them is a prefix of the other.** -/
theorem find?_zip_eq_none_iff {α : Type} [BEq α] [LawfulBEq α] (l m : List α) :
    ((l.zip m).find? fun p => p.1 != p.2) = none ↔ l <+: m ∨ m <+: l := by
  induction l generalizing m with
  | nil => exact iff_of_true rfl (.inl List.nil_prefix)
  | cons a l ih =>
    cases m with
    | nil => exact iff_of_true rfl (.inr List.nil_prefix)
    | cons b m =>
      rw [List.zip_cons_cons, List.find?_cons, List.cons_prefix_cons, List.cons_prefix_cons]
      by_cases same : a = b
      · subst same
        rw [bne_self_eq_false]
        exact (ih m).trans (or_congr (and_iff_right rfl).symm (and_iff_right rfl).symm)
      · rw [bne_iff_ne.mpr same]
        exact iff_of_false nofun fun h => h.elim (fun h => same h.1) fun h => same h.1.symm

/-- Of two lists one of which is a prefix of the other, those of one length are equal. -/
theorem eq_iff_prefix_and_length {α : Type} (l m : List α) :
    l = m ↔ (l <+: m ∨ m <+: l) ∧ l.length = m.length := by
  constructor
  · rintro rfl
    exact ⟨.inl (List.prefix_refl l), rfl⟩
  · rintro ⟨shorter | shorter, long⟩
    · exact shorter.eq_of_length long
    · exact (shorter.eq_of_length long.symm).symm

/-! ## The specification -/

/-- Is no number of a snapshot not-a-number? -/
def Snapshot.isNumeric (s : Snapshot Float32) : Bool :=
  !s.x.isNaN && !s.y.isNaN && !s.rotation.isNaN && !s.scale.x.isNaN && !s.scale.y.isNaN

theorem Snapshot.equals_self {s : Snapshot Float32} (h : s.isNumeric = true) :
    s.equals s = true := by
  simp only [isNumeric, Bool.and_eq_true, Bool.not_eq_true'] at h
  obtain ⟨⟨⟨⟨x, y⟩, rotation⟩, across⟩, along⟩ := h
  simp only [equals, Single.beq_self x, Single.beq_self y, Single.beq_self rotation,
    Single.beq_self across, Single.beq_self along, beq_self_eq_true, Bool.and_self]

namespace Record

variable {a b : Record}

/-- Is no number of a record not-a-number? -/
def isNumeric (r : Record) : Bool := !r.frameTime.isNaN && r.finalEntities.all Snapshot.isNumeric

/-- Are two records equal in every field, their numbers as numbers? -/
def equals (a b : Record) : Bool :=
  a.scene == b.scene && a.steps == b.steps && a.frameTime == b.frameTime
    && a.startup == b.startup && a.results == b.results
    && equalEntities a.finalEntities b.finalEntities

theorem equalEntities_self {l : List (Snapshot Float32)} (h : l.all Snapshot.isNumeric = true) :
    equalEntities l l = true := by
  induction l with
  | nil => rfl
  | cons e l ih =>
    obtain ⟨first, others⟩ := Bool.and_eq_true_iff.mp h
    rw [equalEntities, Snapshot.equals_self first, ih others]
    rfl

/-- A record of numbers is equal to itself. -/
theorem equals_self (h : a.isNumeric = true) : a.equals a = true := by
  obtain ⟨frameTime, entities⟩ := Bool.and_eq_true_iff.mp h
  rw [Bool.not_eq_true'] at frameTime
  simp only [equals, beq_self_eq_true, Single.beq_self frameTime, equalEntities_self entities,
    Bool.and_self]

/-- Two records are equal but for steps that only one of them has. -/
structure Matches (a b : Record) : Prop where
  scene : a.scene = b.scene
  steps : a.steps = b.steps
  frameTime : (a.frameTime == b.frameTime) = true
  startup : a.startup = b.startup
  results : a.results <+: b.results ∨ b.results <+: a.results
  finalEntities : equalEntities a.finalEntities b.finalEntities = true

/-! ## The result -/

theorem header_eq_false_iff :
    (a.scene != b.scene || a.steps != b.steps || a.frameTime != b.frameTime) = false ↔
      a.scene = b.scene ∧ a.steps = b.steps ∧ (a.frameTime == b.frameTime) = true := by
  rw [Bool.or_eq_false_iff, Bool.or_eq_false_iff, bne_eq_false_iff_eq, bne_eq_false_iff_eq, bne,
    Bool.not_eq_false', and_assoc]

/-- **No difference is found exactly if two records match.** -/
theorem firstDifference?_eq_none_iff : a.firstDifference? b = none ↔ a.Matches b := by
  rw [firstDifference?]
  cases header : a.scene != b.scene || a.steps != b.steps || a.frameTime != b.frameTime with
  | true =>
    refine iff_of_false nofun fun h => ?_
    rw [header_eq_false_iff.mpr ⟨h.scene, h.steps, h.frameTime⟩] at header
    cases header
  | false =>
    obtain ⟨scene, steps, frameTime⟩ := header_eq_false_iff.mp header
    rw [if_neg Bool.false_ne_true]
    by_cases startup : a.startup = b.startup
    · rw [startup, bne_self_eq_false, if_neg Bool.false_ne_true]
      cases walk : (a.results.zip b.results).find? fun p => p.1 != p.2 with
      | some p =>
        refine iff_of_false nofun fun h => ?_
        cases walk.symm.trans ((find?_zip_eq_none_iff _ _).mpr h.results)
      | none =>
        have results := (find?_zip_eq_none_iff _ _).mp walk
        cases entities : equalEntities a.finalEntities b.finalEntities with
        | true => exact iff_of_true rfl ⟨scene, steps, frameTime, startup, results, entities⟩
        | false =>
          refine iff_of_false nofun fun h => ?_
          cases entities.symm.trans h.finalEntities
    · rw [if_pos (bne_iff_ne.mpr startup)]
      exact iff_of_false nofun fun h => startup h.startup

/-- Two records are equal exactly if they match and have as many steps. -/
theorem equals_iff_matches :
    a.equals b = true ↔ a.Matches b ∧ a.results.length = b.results.length := by
  have fields : a.equals b = true ↔ (((((a.scene = b.scene ∧ a.steps = b.steps) ∧
      (a.frameTime == b.frameTime) = true) ∧ a.startup = b.startup) ∧ a.results = b.results) ∧
      equalEntities a.finalEntities b.finalEntities = true) := by
    simp only [equals, Bool.and_eq_true, beq_iff_eq]
  rw [fields, eq_iff_prefix_and_length a.results]
  constructor
  · rintro ⟨⟨⟨⟨⟨scene, steps⟩, frameTime⟩, startup⟩, results, many⟩, entities⟩
    exact ⟨⟨scene, steps, frameTime, startup, results, entities⟩, many⟩
  · rintro ⟨⟨scene, steps, frameTime, startup, results, entities⟩, many⟩
    exact ⟨⟨⟨⟨⟨scene, steps⟩, frameTime⟩, startup⟩, results, many⟩, entities⟩

/-- **Two records are equal exactly if no difference is found and they have as many steps.** -/
theorem equals_iff (a b : Record) :
    a.equals b = true ↔ a.firstDifference? b = none ∧ a.results.length = b.results.length := by
  rw [equals_iff_matches, firstDifference?_eq_none_iff]

end Record

namespace Fixture

theorem after_playStep (f : Fixture) (step : Nat) (s : Session) :
    Play.After (f.playStep step) s fun r _ => ∀ k, r = .ok k → k.step = step := by
  refine (Play.After.any _ _).bind fun clicked t _ => ?_
  refine (Play.After.any _ _).bind fun _ t _ => ?_
  refine (Play.After.any _ _).bind fun pending t _ => ?_
  refine (Play.After.any _ _).bind fun switched t _ => ?_
  cases switched with
  | error e => exact fun k h => by cases h
  | ok _ =>
    refine (Play.After.any _ _).bind fun sounds t _ => ?_
    refine (Play.After.any _ _).bind fun events t _ => ?_
    refine (Play.After.any _ _).bind fun lines t _ => ?_
    intro k h
    obtain rfl := Except.ok.inj h
    rfl

/-- Steps are numbered from the first one on. -/
theorem after_playSteps (f : Fixture) (n step : Nat) (s : Session) :
    Play.After (f.playSteps n step) s fun r _ =>
      ∀ l, r = .ok l → l.map StepRecord.step = List.range' step n := by
  induction n generalizing step s with
  | zero =>
    intro l h
    obtain rfl := Except.ok.inj h
    rfl
  | succ n ih =>
    refine (f.after_playStep step s).bind fun r t first => ?_
    cases r with
    | error e => exact fun l h => by cases h
    | ok k =>
      refine (ih (step + 1) t).bind fun r u others => ?_
      cases r with
      | error e => exact fun l h => by cases h
      | ok rest =>
        intro l h
        obtain rfl := Except.ok.inj h
        rw [List.map_cons, first k rfl, others rest rfl, List.range'_succ]

theorem after_play (f : Fixture) (scene : Scene) (s : Session) :
    Play.After (f.play scene) s fun r _ => ∀ k, r = .ok k →
      k.steps = f.steps ∧ k.results.map StepRecord.step = List.range k.steps := by
  refine (Play.After.any _ _).bind fun loaded t _ => ?_
  cases loaded with
  | error e => exact fun k h => by cases h
  | ok _ =>
    refine (Play.After.any _ _).bind fun _ t _ => ?_
    refine (Play.After.any _ _).bind fun startup t _ => ?_
    refine (Play.After.any _ _).bind fun _ t _ => ?_
    refine (f.after_playSteps f.steps 0 t).bind fun results u numbered => ?_
    cases results with
    | error e => exact fun k h => by cases h
    | ok l =>
      refine Play.After.get_bind ?_
      intro k h
      obtain rfl := Except.ok.inj h
      exact ⟨rfl, (numbered l rfl).trans List.range_eq_range'.symm⟩

/-- **A run makes a record of as many steps as its header says**, numbered from nought on. -/
theorem steps_of_run {f : Fixture} {read? : String → Option String} {r : Record}
    (ran : f.run read? = .ok r) :
    r.steps = f.steps ∧ r.results.map StepRecord.step = List.range r.steps := by
  rw [run] at ran
  split at ran
  · cases ran
  · rename_i scene _
    split at ran
    · rename_i t ended
      subst ran
      exact (f.after_play scene _).of_eq ended r rfl
    · cases ran

/-- **What escapes a comparison with the record of a run** are expected records whose steps are not as
    many as their header says. -/
theorem equals_iff_of_run {f : Fixture} {read? : String → Option String} {a : Record}
    (ran : f.run read? = .ok a) (b : Record) :
    a.equals b = true ↔ a.firstDifference? b = none ∧ b.results.length = b.steps := by
  have many : a.results.length = a.steps := by
    rw [← List.length_map (f := StepRecord.step), (steps_of_run ran).2, List.length_range]
  rw [Record.equals_iff_matches, Record.firstDifference?_eq_none_iff]
  refine and_congr_right fun same => ?_
  rw [many, same.steps]
  exact eq_comm

end Fixture

deriving instance DecidableEq for Snapshot, Record

namespace Record

/-- Two steps that take no time pass on an empty stage. -/
def quiet : Fixture :=
  { scene := some ⟨"s", [], [], [], []⟩, scenePath := none, scenes := .empty, steps := 2
    frameTime := 0, seed := 1, config := none, inputs := [] }

/-- The record of that. -/
def uneventful : Record where
  scene := "s"
  steps := 2
  frameTime := 0
  startup :=
    [ "[   0.000] info   scene 's' loaded with 0 entities",
      "[   0.000] info   started with 0 start scripts", "[   0.000] info   start phase complete" ]
  results := [⟨0, [], 0, [], [], none, none⟩, ⟨1, [], 0, [], [], none, none⟩]
  finalEntities := []

/-- The same record cut short by a step. -/
def curtailed : Record := { uneventful with results := uneventful.results.take 1 }

/-- The same record with the sign of nought turned round. -/
def reversed : Record := { uneventful with frameTime := -0 }

/-- No difference is found from an expected record that lacks a step, though the two are not equal;
    nor from one in which the sign of a nought is another, so that its summary reads otherwise. -/
theorem not_equals_curtailed :
    quiet.run (fun _ => none) = .ok uneventful ∧ uneventful.isNumeric = true ∧
      Record.parse? curtailed.render = some curtailed ∧
      uneventful.firstDifference? curtailed = none ∧ uneventful.equals curtailed = false ∧
      uneventful.results.length = 2 ∧ curtailed.results.length = 1 ∧
      uneventful.firstDifference? reversed = none ∧ uneventful ≠ reversed ∧
      uneventful.summary ≠ reversed.summary := by
  decide +kernel

end Record

end BlockStage
