/-
  Loops: which behaviors a program can place in a catalog.

  1. **Specification (`CompiledProgram.Places`)** — a hat gives a behavior that is in the catalog from
     the beginning.  A `forever` statement adds a looping behavior when a script comes to it, and
     the body of that behavior is a script again.  So what a program can place is its hats and the
     loops of their scripts, at any depth (`Stmt.loops`).

  2. **Scripts under way** — a step of the machine takes a statement from a frame or enters one, and
     in either case what is left has no loops but those that were there before.

  3. **What fails (`Places.has_iff`)** — the mask of a program is made of its hats alone.  A loop is
     looked for in the catalog by the same kind of event as a hat that runs in every frame; so the
     mask names the kind of a loop exactly if there happens to be such a hat.
-/
import BlockStage.Script.Compiler
import BlockStage.Script.Machine

namespace BlockStage

/-! ## Loops of scripts -/

mutual

/-- The looping behaviors that a statement can add, those of their bodies included. -/
def Stmt.loops : Stmt → List Behavior
  | .action _ => []
  | .forever loop body => ⟨loop, .forever, body⟩ :: Stmt.loopsIn body
  | .branch _ yes none => Stmt.loopsIn yes
  | .branch _ yes (some no) => Stmt.loopsIn yes ++ Stmt.loopsIn no
  | .repeatTimes _ body => Stmt.loopsIn body
  | .repeatUntil _ body => Stmt.loopsIn body
  | .waitUntil _ => []
  | .forEach _ _ body => Stmt.loopsIn body

/-- The looping behaviors that a sequence can add. -/
def Stmt.loopsIn : List Stmt → List Behavior
  | [] => []
  | s :: rest => s.loops ++ Stmt.loopsIn rest

end

/-- The looping behaviors that a behavior can add. -/
def Behavior.loops (b : Behavior) : List Behavior := Stmt.loopsIn b.body

namespace Stmt

mutual

/-- What a statement can add loops, and what is added by it can be added by the statement. -/
theorem loops_of_mem : ∀ (s : Stmt) {b : Behavior}, b ∈ s.loops →
    b.trigger = .forever ∧ b.loops ⊆ s.loops
  | .action _, _, h => (List.not_mem_nil h).elim
  | .waitUntil _, _, h => (List.not_mem_nil h).elim
  | .forever loop body, b, h => by
    rw [loops] at h ⊢
    rcases List.mem_cons.mp h with rfl | inner
    · exact ⟨rfl, List.subset_cons_self _ _⟩
    · obtain ⟨loops, nested⟩ := loopsIn_of_mem body inner
      exact ⟨loops, List.Subset.trans nested (List.subset_cons_self _ _)⟩
  | .branch _ yes none, _, h => loopsIn_of_mem yes h
  | .branch _ yes (some no), b, h => by
    rw [loops] at h ⊢
    rcases List.mem_append.mp h with first | second
    · obtain ⟨loops, nested⟩ := loopsIn_of_mem yes first
      exact ⟨loops, List.Subset.trans nested (List.subset_append_left _ _)⟩
    · obtain ⟨loops, nested⟩ := loopsIn_of_mem no second
      exact ⟨loops, List.Subset.trans nested (List.subset_append_right _ _)⟩
  | .repeatTimes _ body, _, h => loopsIn_of_mem body h
  | .repeatUntil _ body, _, h => loopsIn_of_mem body h
  | .forEach _ _ body, _, h => loopsIn_of_mem body h

theorem loopsIn_of_mem : ∀ (l : List Stmt) {b : Behavior}, b ∈ loopsIn l →
    b.trigger = .forever ∧ b.loops ⊆ loopsIn l
  | [], _, h => (List.not_mem_nil h).elim
  | s :: rest, b, h => by
    rw [loopsIn] at h ⊢
    rcases List.mem_append.mp h with first | later
    · obtain ⟨loops, nested⟩ := loops_of_mem s first
      exact ⟨loops, List.Subset.trans nested (List.subset_append_left _ _)⟩
    · obtain ⟨loops, nested⟩ := loopsIn_of_mem rest later
      exact ⟨loops, List.Subset.trans nested (List.subset_append_right _ _)⟩

end

end Stmt

/-! ## Scripts under way -/

namespace Frame

/-- The looping behaviors that a frame can still add. -/
def loops : Frame → List Behavior
  | .sequence rest => Stmt.loopsIn rest
  | .loop _ body rest => Stmt.loopsIn body ++ Stmt.loopsIn rest
  | .turned _ body => Stmt.loopsIn body

/-- Whatever frames can still add is of some kind. -/
def AddsOnly (kind : Behavior → Prop) (fs : List Frame) : Prop := ∀ f ∈ fs, ∀ b ∈ f.loops, kind b

variable {kind : Behavior → Prop}

theorem addsOnly_cons {f : Frame} {fs : List Frame} :
    AddsOnly kind (f :: fs) ↔ (∀ b ∈ f.loops, kind b) ∧ AddsOnly kind fs := List.forall_mem_cons

theorem addsOnly_nil : AddsOnly kind [] := fun _ h => (List.not_mem_nil h).elim

/-- Taking a statement from a frame divides its loops. -/
theorem loops_of_take? {f g : Frame} {s : Stmt} (h : f.take? = some (s, g)) :
    s.loops ⊆ f.loops ∧ g.loops ⊆ f.loops := by
  cases f with
  | sequence l =>
    cases l with
    | nil => cases h
    | cons a r =>
      cases h
      exact ⟨List.subset_append_left _ _, List.subset_append_right _ _⟩
  | loop k b l =>
    cases l with
    | nil => cases h
    | cons a r =>
      cases h
      simp only [loops, Stmt.loopsIn]
      refine ⟨fun b hb => ?_, fun b hb => ?_⟩
      · exact List.mem_append_right _ (List.mem_append_left _ hb)
      · rcases List.mem_append.mp hb with body | rest
        · exact List.mem_append_left _ body
        · exact List.mem_append_right _ (List.mem_append_right _ rest)
  | turned k b => cases h

/-- Entering a statement adds no loops to its own. -/
theorem loops_of_enter (s : Stmt) (o : Outcome) : ∀ f ∈ s.enter o, f.loops ⊆ s.loops := by
  have twice : ∀ l : List Behavior, l ++ l ⊆ l := fun l b hb => or_self_iff.mp (List.mem_append.mp hb)
  intro f hf
  rw [Stmt.enter.eq_def] at hf
  split at hf
  · obtain rfl := List.mem_singleton.mp hf
    rename_i no
    cases no with
    | none => exact List.Subset.refl _
    | some no => exact List.subset_append_left _ _
  · obtain rfl := List.mem_singleton.mp hf
    exact List.subset_append_right _ _
  · obtain rfl := List.mem_singleton.mp hf
    exact twice _
  · obtain rfl := List.mem_singleton.mp hf
    exact twice _
  · obtain rfl := List.mem_singleton.mp hf
    exact twice _
  · exact (List.not_mem_nil hf).elim

end Frame

/-! ## Masks -/

namespace EventMask

theorem has_union (a b : EventMask) (k : EventKind) : (a.union b).has k = (a.has k || b.has k) :=
  BitVec.getLsbD_or

theorem has_only_iff (j k : EventKind) : (only j).has k = true ↔ j = k := by
  cases j <;> cases k <;> decide

theorem has_only (k : EventKind) : (only k).has k = true := (has_only_iff k k).mpr rfl

/-- The kinds that a mask has once those of behaviors have been added. -/
theorem has_foldl_union (l : List Behavior) (m : EventMask) (k : EventKind) :
    (l.foldl (fun m b => m.union (.only b.trigger.kind)) m).has k = true
      ↔ m.has k = true ∨ ∃ b ∈ l, b.trigger.kind = k := by
  induction l generalizing m with
  | nil => simp
  | cons b l ih =>
    rw [List.foldl_cons, ih, has_union, Bool.or_eq_true, has_only_iff, or_assoc]
    simp only [List.mem_cons, exists_eq_or_imp]

end EventMask

theorem Trigger.kind_eq_forever {t : Trigger} (h : t.kind = .forever) : t = .forever := by
  cases t <;> first | rfl | cases h

namespace CompiledProgram

variable {c : CompiledProgram} {b : Behavior}

/-- What a program can place in a catalog: its hats, and the loops of their scripts. -/
def Places (c : CompiledProgram) (b : Behavior) : Prop :=
  b ∈ c.behaviors ∨ ∃ hat ∈ c.behaviors, b ∈ hat.loops

/-- The mask of a program names the kinds of its hats. -/
theorem has_required (c : CompiledProgram) (k : EventKind) :
    c.required.has k = true ↔ ∃ hat ∈ c.behaviors, hat.trigger.kind = k := by
  rw [required, EventMask.has_foldl_union]
  refine or_iff_right fun none => ?_
  cases k <;> cases none

namespace Places

/-- What a behavior of a program can add is placed by the program as well. -/
theorem loops (h : c.Places b) : ∀ l ∈ b.loops, c.Places l := by
  intro l hl
  rcases h with hat | ⟨hat, there, loop⟩
  · exact .inr ⟨b, hat, hl⟩
  · exact .inr ⟨hat, there, (Stmt.loopsIn_of_mem _ loop).2 hl⟩

/-- **The mask names the kind of a behavior that the program places exactly if the behavior is a hat,
    or some hat runs in every frame.** -/
theorem has_iff (h : c.Places b) :
    c.required.has b.trigger.kind = true
      ↔ b ∈ c.behaviors ∨ ∃ hat ∈ c.behaviors, hat.trigger = .forever := by
  rw [has_required]
  constructor
  · rintro ⟨hat, there, same⟩
    refine h.imp id ?_
    rintro ⟨_, _, loop⟩
    rw [(Stmt.loopsIn_of_mem _ loop).1] at same
    exact ⟨hat, there, Trigger.kind_eq_forever same⟩
  · rintro (hat | ⟨hat, there, every⟩)
    · exact ⟨b, hat, rfl⟩
    · rcases h with hat | ⟨_, _, loop⟩
      · exact ⟨b, hat, rfl⟩
      · exact ⟨hat, there, by rw [every, (Stmt.loopsIn_of_mem _ loop).1]⟩

end Places

end CompiledProgram

end BlockStage
