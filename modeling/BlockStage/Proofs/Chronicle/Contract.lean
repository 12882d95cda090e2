/-
  Contracts: what is said of watched steps by what holds before and after them.

  1. **Specification (`Chronicle.Contract`)** — a way of saying of a step that it does right from
     every session with some property, and that another property holds then.  It must go through
     sequencing, and nothing may be wrong with an answer.

  2. **The machine (`Host.Bound.run`)** — a script is under a contract if its surroundings are.  They
     have to be so only while the script may run, since the machine asks before each step.
-/
import BlockStage.Proofs.Chronicle.Tells

namespace BlockStage

namespace Chronicle

/-- A way of saying what holds after a watched step if something holds before. -/
structure Contract
    (T : ∀ {α : Type}, (Session → Prop) → Chronicle α → (α → Session → Prop) → Prop) : Prop where
  bind : ∀ {α β : Type} {pre : Session → Prop} {m : α → Session → Prop} {last : β → Session → Prop}
    {c : Chronicle α} {f : α → Chronicle β},
    T pre c m → (∀ a, T (m a) (f a) last) → T pre (c >>= f) last
  weaken : ∀ {α : Type} {pre pre' : Session → Prop} {post post' : α → Session → Prop}
    {c : Chronicle α},
    T pre c post → (∀ s, pre' s → pre s) → (∀ a t, post a t → post' a t) → T pre' c post'
  pure : ∀ {α : Type} {pre : Session → Prop} (a : α), T pre (Pure.pure a) fun _ _ => True

end Chronicle

/-! ## The machine -/

open Chronicle

/-- Surroundings of a script that are under a contract while the script may run. -/
structure Host.Bound
    (T : ∀ {α : Type}, (Session → Prop) → Chronicle α → (α → Session → Prop) → Prop)
    (may : Session → Prop) (h : Host Chronicle) : Prop where
  alive : T (fun _ => True) h.alive fun going s => going = true → may s
  eval : ∀ e, T may (h.eval e) fun _ => may
  perform : ∀ a, T may (h.perform a) fun _ _ => True
  count : ∀ name i, T may (h.count name i) fun _ _ => True
  addLoop : ∀ loop body, T may (h.addLoop loop body) fun _ _ => True
  report : ∀ message, T (fun _ => True) (h.report message) fun _ _ => True

namespace Host.Bound

variable {T : ∀ {α : Type}, (Session → Prop) → Chronicle α → (α → Session → Prop) → Prop}
  (hT : Contract @T) {may : Session → Prop} {h : Host Chronicle} (hk : Host.Bound @T may h)
include hT hk

theorem resolve (s : Stmt) : T may (h.resolve s) fun _ _ => True := by
  cases s with
  | action a =>
    refine hT.bind (hk.perform a) fun flow => ?_
    cases flow with
    | fail message => exact hT.bind (hk.report message) fun _ => hT.pure _
    | _ => exact hT.pure _
  | forever loop body => exact hT.bind (hk.addLoop loop body) fun _ => hT.pure _
  | branch condition yes no => exact hT.bind (hk.eval _) fun _ => hT.pure _
  | repeatTimes times body => exact hT.bind (hk.eval _) fun _ => hT.pure _
  | repeatUntil condition body => exact hT.bind (hk.eval _) fun _ => hT.pure _
  | waitUntil condition => exact hT.bind (hk.eval _) fun _ => hT.pure _
  | forEach name n body =>
    refine hT.bind (hk.eval _) fun v => ?_
    dsimp only
    split
    · exact hT.pure _
    · exact hT.bind (hk.count _ _) fun _ => hT.pure _

theorem again (kind : Loop) : T may (h.again kind) fun _ _ => True := by
  cases kind with
  | times n => exact hT.pure _
  | untilTrue condition => exact hT.bind (hk.eval _) fun _ => hT.pure _
  | each name index n =>
    rw [Host.again]
    split
    · exact hT.bind (hk.count _ _) fun _ => hT.pure _
    · exact hT.pure _

/-- **The machine is under a contract whenever its surroundings are while the script may run**, since
    it asks before each step. -/
theorem run (frames : List Frame) : T (fun _ => True) (h.run frames) fun _ _ => True := by
  -- the recursion is the machine's own: every call is on a lighter stack
  have rest : ∀ left, Frame.weights left < Frame.weights frames →
      T (fun _ => True) (h.run left) fun _ _ => True :=
    fun left _ => run left
  cases frames with
  | nil =>
    rw [Host.run.eq_def]
    refine hT.bind hk.alive fun going => ?_
    cases going <;> exact hT.pure _
  | cons f fs =>
    cases ht : f.take? with
    | some taken =>
      obtain ⟨s, g⟩ := taken
      rw [Host.run_take ht]
      refine hT.bind hk.alive fun going => ?_
      cases going with
      | false => exact hT.pure _
      | true =>
        refine hT.bind (hT.weaken (hk.resolve hT s) (fun _ live => live rfl) fun _ _ => id)
          fun o => ?_
        have next := rest (s.enter o ++ g :: fs) (Frame.weights_enter_lt ht o fs)
        cases o with
        | pause p => exact hT.pure _
        | finish => exact hT.pure _
        | _ => exact next
    | none =>
      rw [Host.run_over ht]
      refine hT.bind hk.alive fun going => ?_
      cases going with
      | false => exact hT.pure _
      | true =>
        cases f with
        | sequence l =>
          exact hT.weaken (rest fs (Frame.weights_lt_cons _ fs)) (fun _ _ => trivial) fun _ _ => id
        | loop kind body l => exact hT.pure _
        | turned kind body =>
          refine hT.bind (hT.weaken (hk.again hT kind) (fun _ live => live rfl) fun _ _ => id)
            fun turn => ?_
          cases turn with
          | none => exact rest fs (Frame.weights_lt_cons _ fs)
          | some next =>
            exact rest (.loop next body body :: fs) (Frame.weights_turn_lt kind next body fs)
termination_by Frame.weights frames

end Host.Bound

end BlockStage
