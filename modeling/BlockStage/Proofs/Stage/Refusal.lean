/-
  Refusals: what is left of an attempt to attach that was refused.

  1. **The specification** — a refused attempt leaves everyone held as before: the same parent, the
     same children, the same stored placement, and a body that moves by itself or is pinned as it
     was (`Hold`).

  2. **The crux** — two of the three refusals are found before anything is touched, but whether the
     new parent is live is asked only when the old one has been left.

  3. **What fails** — so an actor that is attached loses its parent to an attempt to attach it to
     someone who is gone, and a refusal is harmless in all other cases (`hold?_attach_iff`).
-/
import BlockStage.Proofs.Stage.Forest
import BlockStage.Proofs.Stage.Operation

namespace BlockStage

variable {α : Type}

/-! ## Holds -/

/-- What holds an actor where it is: its links, its stored placement, and whether its body, if it has
    one, is pinned. -/
structure Hold (α : Type) where
  parent : Option Handle
  children : List Handle
  placement : Placement α
  pinned : Option Bool

/-- The hold of an actor. -/
def Actor.hold (a : Actor α) : Hold α :=
  ⟨a.parent, a.children, a.placement, a.body.map Body.pinned⟩

namespace Stage

variable {s : Stage α} {child parent : Handle}

/-- The hold of a live actor. -/
def hold? (s : Stage α) (h : Handle) : Option (Hold α) := (s.actor? h).map Actor.hold

theorem parent?_eq_hold? (s : Stage α) (h : Handle) : s.parent? h = (s.hold? h).bind Hold.parent := by
  rw [parent?, hold?]
  cases s.actor? h <;> rfl

/-- Only the living are attached. -/
theorem isSome_actor?_of_parent? {h p : Handle} (hp : s.parent? h = some p) :
    (s.actor? h).isSome = true := by
  obtain ⟨a, ha, -⟩ := Option.bind_eq_some_iff.mp hp
  rw [ha]
  rfl

/-- Who is found among the ancestors of a parent is found by way of its own link. -/
theorem isSome_actor?_of_isAncestor (found : s.isAncestor child parent = true) :
    (s.actor? parent).isSome = true := by
  rw [isAncestor] at found
  cases link : s.parent? parent with
  | none =>
    rw [link] at found
    cases found
  | some p => exact isSome_actor?_of_parent? link

/-! ## Refused attempts -/

variable [Scalar α]

/-- Who is not attached has nobody to leave. -/
theorem detach_of_free (free : s.parent? child = none) : (s.detach child).2 = s := by
  rw [detach, free]

/-- Who leaves a parent is not held as before. -/
theorem hold?_detach_ne (attached : s.parent? child ≠ none) :
    (s.detach child).2.hold? child ≠ s.hold? child := by
  intro same
  have left := s.parent?_detach child child
  rw [if_pos rfl, parent?_eq_hold?, same, ← parent?_eq_hold?] at left
  exact attached left

/-- **What is left of a refused attempt**: the stage as it was, if the child had no parent or the new
    one is live, and otherwise the stage on which the child has left its parent. -/
theorem attach_of_refused {e : AttachError} (refused : (s.attach child parent).1 = .error e) :
    ((s.parent? child = none ∨ (s.actor? parent).isSome = true) ∧ (s.attach child parent).2 = s) ∨
      (s.parent? child ≠ none ∧ s.actor? parent = none ∧ e = .notLive ∧
        (s.attach child parent).2 = (s.detach child).2) := by
  have alone : s.parent? child = none ∨ (s.actor? child).isSome = true := by
    cases link : s.parent? child with
    | none => exact .inl rfl
    | some p => exact .inr (isSome_actor?_of_parent? link)
  have step := s.attach_step child parent
  generalize s.attach child parent = r at step refused ⊢
  obtain ⟨answer, t⟩ := r
  cases step with
  | itself same => exact .inl ⟨alone.imp_right (same ▸ ·), rfl⟩
  | cycle _ found => exact .inl ⟨.inr (isSome_actor?_of_isAncestor found), rfl⟩
  | notLive _ _ gone =>
    cases link : s.parent? child with
    | none => exact .inl ⟨.inl rfl, detach_of_free link⟩
    | some p =>
      -- the child is live, so it is the parent that is gone
      have live := isSome_actor?_of_parent? link
      refine .inr ⟨Option.some_ne_none p, ?_, (Except.error.inj refused).symm, rfl⟩
      exact Option.not_isSome_iff_eq_none.mp fun there => gone ⟨live, there⟩
  | linked => cases refused

/-- **When a refusal is harmless.**  A refused attempt to attach a child to a parent, at whatever
    stage and with whatever handles, leaves everyone held as before exactly if the child had no
    parent or the new one is live; then it leaves everything as it was, and otherwise the child is
    on its own. -/
theorem hold?_attach_iff {e : AttachError} (refused : (s.attach child parent).1 = .error e) :
    ((∀ h, (s.attach child parent).2.hold? h = s.hold? h) ↔
        s.parent? child = none ∨ (s.actor? parent).isSome = true) ∧
      (s.attach child parent).2 =
        if s.parent? child = none ∨ (s.actor? parent).isSome = true then s
        else (s.detach child).2 := by
  rcases attach_of_refused refused with ⟨harmless, same⟩ | ⟨attached, gone, -, left⟩
  · rw [if_pos harmless, same]
    exact ⟨iff_of_true (fun _ => rfl) harmless, rfl⟩
  · have harm : ¬(s.parent? child = none ∨ (s.actor? parent).isSome = true) := by
      rintro (free | live)
      · exact attached free
      · rw [gone] at live
        cases live
    rw [if_neg harm, left]
    exact ⟨iff_of_false (fun same => hold?_detach_ne attached (same child)) harm, rfl⟩

/-! ## A parent who has gone -/

/-- An actor is attached to another, and a third leaves. -/
def farewell : List (Op Float32) :=
  [.spawn (Spawn.new "p"), .spawn (Spawn.new "q"), .spawn (Spawn.new "c"), .attach 2 0,
    .despawn "q"]

/-- The stage on which that has happened. -/
def parting : Stage Float32 := (Stage.new ⟨800, 600⟩ .usual).perform farewell

/-- Who is attached cannot be its own parent, and stays where it is. -/
theorem hold?_parting :
    (parting.attach 2 2).1 = .error .itself ∧ (parting.actor? 2).isSome = true ∧
      ∀ h, (parting.attach 2 2).2.hold? h = parting.hold? h := by
  have refused : (parting.attach 2 2).1 = .error .itself := rfl
  have live : (parting.actor? 2).isSome = true := by decide +kernel
  exact ⟨refused, live, (hold?_attach_iff refused).1.mpr (.inr live)⟩

/-- The attempt to attach it to the one who has left is refused, and it has lost its parent. -/
theorem not_held_parting :
    (parting.attach 2 1).1 = .error .notLive ∧ parting.parent? 2 = some 0 ∧
      parting.children 0 = [2] ∧ (parting.attach 2 1).2.parent? 2 = none ∧
      (parting.attach 2 1).2.children 0 = [] ∧
      ¬∀ h, (parting.attach 2 1).2.hold? h = parting.hold? h := by
  have before : parting.parent? 2 = some 0 := by decide +kernel
  have after : (parting.attach 2 1).2.parent? 2 = none := by decide +kernel
  refine ⟨by decide +kernel, before, by decide +kernel, after, by decide +kernel, fun same => ?_⟩
  rw [parent?_eq_hold?, same, ← parent?_eq_hold?, before] at after
  cases after

end Stage

end BlockStage
