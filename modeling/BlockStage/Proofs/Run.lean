/-
  Runs in general: steps taken one after the other, as a fold over a list.

  A property may hold at every moment of a run because each step keeps it.  Where a step can fail to,
  the exact statement is that the property holds at every moment exactly if no step ever slips; it
  is enough to know this of one step.
-/
import Mathlib.Data.List.Induction

namespace BlockStage

/-- What a step keeps exactly if nothing slips holds at every moment exactly if nothing ever slips. -/
theorem always_foldl_iff {σ β : Type} {P : σ → Prop} {slips : σ → β → Prop} {f : σ → β → σ}
    (keeps : ∀ {s}, P s → ∀ x, P (f s x) ↔ ¬slips s x) {s : σ} (hs : P s) (l : List β) :
    (∀ done, done <+: l → P (done.foldl f s)) ↔
      ∀ done x, done ++ [x] <+: l → ¬slips (done.foldl f s) x := by
  have last : ∀ done x, (done ++ [x]).foldl f s = f (done.foldl f s) x := by
    intro done x
    rw [List.foldl_append]
    rfl
  constructor
  · intro always done x before
    have now := always done ((List.prefix_append done [x]).trans before)
    have next := always (done ++ [x]) before
    rw [last] at next
    exact (keeps now x).mp next
  · intro sound done before
    -- from the front to the back: each step is taken where the property still holds
    induction done using List.reverseRec with
    | nil => exact hs
    | append_singleton done x ih =>
      rw [last]
      exact (keeps (ih ((List.prefix_append done [x]).trans before)) x).mpr (sound done x before)

end BlockStage
