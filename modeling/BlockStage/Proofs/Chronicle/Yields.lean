/-
  What chronicles yield.

  If a step that is watched returns, then it yields an answer, a session, and the moments that have
  passed (`Chronicle.Yields`).  What is known of the single steps is put together along the program:
  the moments of one step are followed by those of the next.
-/
import BlockStage.Proofs.Chronicle.Tells
import BlockStage.Proofs.Session.Pausing

namespace BlockStage

open Session (Trace)

namespace Chronicle

variable {α β : Type}

/-- What holds of the answer, the session and the moments if a step that is watched returns. -/
def Yields (c : Chronicle α) (s : Session) (Q : α → Session → List Moment → Prop) : Prop :=
  ∀ a t, (c s).1 = .ok a t → Q a t (c s).2

namespace Yields

variable {c : Chronicle α} {p : Play α} {s : Session} {Q R : α → Session → List Moment → Prop}

theorem bind {f : α → Chronicle β} {S : β → Session → List Moment → Prop} (hc : Yields c s Q)
    (hf : ∀ a t l, Q a t l → Yields (f a) t fun b u m => S b u (l ++ m)) : Yields (c >>= f) s S := by
  intro b u hb
  cases hr : (c s).1 with
  | ok a t =>
    rw [bind_of_ok hr] at hb ⊢
    exact hf a t _ (hc a t hr) b u hb
  | error e t =>
    rw [bind_of_error hr] at hb
    cases hb

/-- Two ways that go on alike. -/
theorem bind_ite {q : Prop} [Decidable q] {d : Chronicle α} {f : α → Chronicle β}
    {S : β → Session → List Moment → Prop} (hc : Yields (if q then c else d) s Q)
    (hf : ∀ a t l, Q a t l → Yields (f a) t fun b u m => S b u (l ++ m)) :
    Yields (if q then c >>= f else d >>= f) s S := by
  by_cases h : q
  · rw [if_pos h] at hc ⊢
    exact hc.bind hf
  · rw [if_neg h] at hc ⊢
    exact hc.bind hf

theorem mono (hc : Yields c s Q) (h : ∀ a t l, Q a t l → R a t l) : Yields c s R :=
  fun a t ha => h a t _ (hc a t ha)

theorem and (hc : Yields c s Q) (hr : Yields c s R) :
    Yields c s fun a t l => Q a t l ∧ R a t l := fun a t ha => ⟨hc a t ha, hr a t ha⟩

/-- A step of which it is known how it ends and what is seen. -/
theorem of_run {a : α} {t : Session} {l : List Moment} (h : c s = (.ok a t, l)) (hQ : Q a t l) :
    Yields c s Q := by
  intro b u hb
  rw [h] at hb ⊢
  obtain ⟨rfl, rfl⟩ := EStateM.Result.ok.inj hb
  exact hQ

theorem pure {a : α} (h : Q a s []) : Yields (Pure.pure a) s Q := of_run rfl h

/-- A step of which nothing is seen. -/
theorem silent (h : Play.After p s fun a t => Q a t []) : Yields (liftM p) s Q :=
  fun _ _ ha => h.of_eq ha

/-- What comes after a step of which nothing is seen. -/
theorem unseen {f : α → Chronicle β} {I : Session → Prop} {S : β → Session → List Moment → Prop}
    (h : Play.After p s fun _ t => I t) (hf : ∀ a t, I t → Yields (f a) t S) :
    Yields (liftM p >>= f) s S := by
  have first : Yields (liftM p) s fun _ t l => I t ∧ l = [] :=
    silent (h.mono fun _ _ ht => ⟨ht, rfl⟩)
  refine first.bind fun a t l h => ?_
  obtain ⟨ht, rfl⟩ := h
  exact hf a t ht

/-- A step that is seen. -/
theorem seen {o : Occasion} (h : Play.After p s fun a t => Q a t [⟨o, s⟩]) :
    Yields (Chronicle.seen o p) s Q := fun _ _ ha => h.of_eq ha

/-- A mark, and what comes after it. -/
theorem marked {o : Occasion} (h : Yields c s fun a t l => Q a t (⟨o, s⟩ :: l)) :
    Yields (do mark o; c) s Q := by
  refine bind (Q := fun _ t l => t = s ∧ l = [⟨o, s⟩]) (seen ⟨rfl, rfl⟩) ?_
  rintro _ _ _ ⟨rfl, rfl⟩
  exact h

/-- Looking at the session. -/
theorem look {f : Session → Chronicle α} (h : Yields (f s) s Q) : Yields (get >>= f) s Q := h

/-- Asking the session. -/
theorem ask {q : Session → β} {f : β → Chronicle α} (h : Yields (f (q s)) s Q) :
    Yields ((liftM (Play.ask q) : Chronicle β) >>= f) s Q := h

/-- What tells of a step yields what the step leads to, and a trace of it. -/
theorem of_told {A : Occasion → Prop} {S : α → Session → Prop} (h : Told A c p)
    (after : Play.After p s S) : Yields c s fun a t l => S a t ∧ Trace A s l t := by
  intro a t ha
  have same := h.same s
  rw [same] at ha
  refine ⟨after.of_eq ha, ?_⟩
  have trace := h.trace s trivial
  rw [Play.last_of_ok ha] at trace
  exact trace

end Yields

end Chronicle

end BlockStage
