/-
  What chronicles tell.

  1. **Specification (`Chronicle.Tells`)** — a chronicle tells of a step if it ends like the step,
     from every session, and if the moments that have passed are a trace of the step.  A condition
     on the session in which the step is taken goes along, since a script may only be seen at work
     while its entity may run.

  2. **Rules** — one for each way of putting steps together, and one along the recursion of the
     machine (`Host.Tells.run`).

  3. **The theorem (`Call.told`)** — the watched session tells of every call what the call
     does.  So the moments of all calls are a trace of them (`Session.trace_chronicle`).
-/
import BlockStage.Proofs.Chronicle.Trace
import BlockStage.Proofs.Session.Round

namespace BlockStage

open Session (Trace Change Changes Effect)

namespace Chronicle

variable {α β : Type} {A : Occasion → Prop}

/-! ## Telling -/

/-- From every session a chronicle ends like a step, and from every session with a property the
    moments are a trace of the step, and another property holds afterwards. -/
structure Tells (A : Occasion → Prop) (pre : Session → Prop) (c : Chronicle α) (p : Play α)
    (post : α → Session → Prop) : Prop where
  same : ∀ s, (c s).1 = p s
  trace : ∀ s, pre s → Trace A s (c s).2 (p.last s)
  after : ∀ s a t, pre s → p s = .ok a t → post a t

/-- A chronicle tells of a step, whatever the session is like. -/
abbrev Told (A : Occasion → Prop) (c : Chronicle α) (p : Play α) : Prop :=
  Tells A (fun _ => True) c p fun _ _ => True

section
variable {c : Chronicle α} {f : α → Chronicle β} {s t : Session}

theorem bind_of_ok {a : α} (h : (c s).1 = .ok a t) :
    (c >>= f) s = ((f a t).1, (c s).2 ++ (f a t).2) := by
  have whole : c s = (.ok a t, (c s).2) := Prod.ext h rfl
  simp only [bind]
  rw [whole]

theorem bind_of_error {e : Fault} (h : (c s).1 = .error e t) :
    (c >>= f) s = (.error e t, (c s).2) := by
  have whole : c s = (.error e t, (c s).2) := Prod.ext h rfl
  simp only [bind]
  rw [whole]

theorem get_bind (f : Session → Chronicle β) : (get >>= f) s = f s s := rfl

/-- A launch that is refused does nothing, and nothing is seen. -/
theorem launchWith_of_refused {clone : String → Chronicle Unit} {id : String} {b : Behavior}
    (refused : (!s.running || s.scheduler.isActive id b.id) = true) :
    launchWith clone id b s = (.ok false s, []) := by
  rw [launchWith, get_bind, if_pos refused]
  rfl

end

namespace Tells

variable {pre pre' : Session → Prop} {m post post' : α → Session → Prop}
  {last : β → Session → Prop} {c : Chronicle α} {p : Play α} {f : α → Chronicle β} {g : α → Play β}

theorem bind (hc : Tells A pre c p m) (hf : ∀ a, Tells A (m a) (f a) (g a) last) :
    Tells A pre (c >>= f) (p >>= g) last := by
  refine ⟨fun s => ?_, fun s hs => ?_, fun s b u hs => ?_⟩
  · have first := hc.same s
    cases hp : p s with
    | ok a t =>
      rw [bind_of_ok (first.trans hp), Play.bind_of_ok hp]
      exact (hf a).same t
    | error e t => rw [bind_of_error (first.trans hp), Play.bind_of_error hp]
  · have first := hc.same s
    have passed := hc.trace s hs
    cases hp : p s with
    | ok a t =>
      rw [Play.last_of_ok hp] at passed
      rw [bind_of_ok (first.trans hp), Play.last, Play.bind_of_ok hp]
      exact passed.trans ((hf a).trace t (hc.after s a t hs hp))
    | error e t =>
      rw [Play.last, hp] at passed
      rw [bind_of_error (first.trans hp), Play.last, Play.bind_of_error hp]
      exact passed
  · intro hb
    cases hp : p s with
    | ok a t =>
      rw [Play.bind_of_ok hp] at hb
      exact (hf a).after t b u (hc.after s a t hs hp) hb
    | error e t =>
      rw [Play.bind_of_error hp] at hb
      cases hb

theorem weaken (h : Tells A pre c p post) (hpre : ∀ s, pre' s → pre s)
    (hpost : ∀ a t, post a t → post' a t) : Tells A pre' c p post' :=
  ⟨h.same, fun s hs => h.trace s (hpre s hs),
    fun s a t hs hp => hpost a t (h.after s a t (hpre s hs) hp)⟩

theorem pure (a : α) (h : ∀ s, pre s → post a s) :
    Tells A pre (Pure.pure a : Chronicle α) (Pure.pure a) post := by
  refine ⟨fun _ => rfl, fun _ _ => .start, fun s b t hs hb => ?_⟩
  obtain ⟨rfl, rfl⟩ := EStateM.Result.ok.inj hb
  exact h s hs

/-- A step of which nothing is seen. -/
theorem silent (h : ∀ s, pre s → Changes s (p.last s))
    (after : ∀ s a t, pre s → p s = .ok a t → post a t) : Tells A pre (liftM p) p post :=
  ⟨fun _ => rfl, fun s hs => Trace.start.changes (h s hs), after⟩

/-- A step that is seen: first the occasion has its effect, and then follows what is not seen. -/
theorem seen {o : Occasion} (ho : A o)
    (h : ∀ s, pre s → ∃ t, Effect o s t ∧ Changes t (p.last s))
    (after : ∀ s a t, pre s → p s = .ok a t → post a t) :
    Tells A pre (Chronicle.seen o p) p post := by
  refine ⟨fun _ => rfl, fun s hs => ?_, after⟩
  obtain ⟨t, effect, changes⟩ := h s hs
  exact (Trace.start.moment ho effect).changes changes

/-- A mark adds a moment and does nothing. -/
theorem marked {o : Occasion} (ho : A o) (h : ∀ s, pre s → Effect o s s)
    (hc : Tells A pre c p post) : Tells A pre (do mark o; c) p post := by
  have told : Tells A pre (mark o) (Pure.pure ()) fun _ => pre :=
    .seen ho (fun s hs => ⟨s, h s hs, .refl s⟩) fun s a t hs hb => by
      obtain ⟨-, rfl⟩ := EStateM.Result.ok.inj hb
      exact hs
  exact told.bind fun _ => hc

/-- Looking at the session. -/
theorem look {f : Session → Chronicle α} {g : Session → Play α}
    (h : ∀ s, Tells A (fun t => t = s ∧ pre s) (f s) (g s) post) :
    Tells A pre (get >>= f) (get >>= g) post where
  same s := (h s).same s
  trace s hs := (h s).trace s ⟨rfl, hs⟩
  after s a t hs hp := (h s).after s a t ⟨rfl, hs⟩ hp

/-- Asking the session. -/
theorem ask {q : Session → β} {f : β → Chronicle α} {g : β → Play α}
    (h : ∀ s, Tells A (fun t => t = s ∧ pre s) (f (q s)) (g (q s)) post) :
    Tells A pre ((liftM (Play.ask q) : Chronicle β) >>= f) (Play.ask q >>= g) post where
  same s := (h s).same s
  trace s hs := (h s).trace s ⟨rfl, hs⟩
  after s a t hs hp := (h s).after s a t ⟨rfl, hs⟩ hp

theorem ite (q : Prop) [Decidable q] {c' : Chronicle α} {p' : Play α}
    (h : q → Tells A pre c p post) (h' : ¬q → Tells A pre c' p' post) :
    Tells A pre (if q then c else c') (if q then p else p') post := by
  by_cases hq : q
  · rw [if_pos hq, if_pos hq]
    exact h hq
  · rw [if_neg hq, if_neg hq]
    exact h' hq

end Tells

namespace Told

variable {c c' : Chronicle α} {p p' : Play α} {f : α → Chronicle β} {g : α → Play β}

theorem of {pre : Session → Prop} (h : Told A c p) : Tells A pre c p fun _ _ => True :=
  h.weaken (fun _ _ => trivial) fun _ _ h => h

theorem bind (hc : Told A c p) (hf : ∀ a, Told A (f a) (g a)) : Told A (c >>= f) (p >>= g) :=
  Tells.bind hc hf

theorem pure (a : α) : Told A (Pure.pure a : Chronicle α) (Pure.pure a) :=
  Tells.pure a fun _ _ => trivial

theorem silent (h : ∀ s, Changes s (p.last s)) : Told A (liftM p) p :=
  Tells.silent (fun s _ => h s) fun _ _ _ _ _ => trivial

theorem seen {o : Occasion} (ho : A o) (h : ∀ s, ∃ t, Effect o s t ∧ Changes t (p.last s)) :
    Told A (Chronicle.seen o p) p :=
  Tells.seen ho (fun s _ => h s) fun _ _ _ _ _ => trivial

theorem marked {o : Occasion} (ho : A o) (h : ∀ s, Effect o s s) (hc : Told A c p) :
    Told A (do mark o; c) p := Tells.marked ho (fun s _ => h s) hc

theorem look {f : Session → Chronicle α} {g : Session → Play α} (h : ∀ s, Told A (f s) (g s)) :
    Told A (get >>= f) (get >>= g) := Tells.look fun s => (h s).of

theorem ask {q : Session → β} {f : β → Chronicle α} {g : β → Play α}
    (h : ∀ s, Told A (f (q s)) (g (q s))) :
    Told A ((liftM (Play.ask q) : Chronicle β) >>= f) (Play.ask q >>= g) :=
  Tells.ask fun s => (h s).of

theorem ite (q : Prop) [Decidable q] (h : Told A c p) (h' : Told A c' p') :
    Told A (if q then c else c') (if q then p else p') := Tells.ite q (fun _ => h) fun _ => h'

theorem discarded (h : Told A c p) : Told A (discard c : Chronicle Unit) (discard p : Play Unit) :=
  Told.bind h fun _ => .pure ()

theorem forM {f : α → Chronicle Unit} {g : α → Play Unit} (l : List α)
    (h : ∀ a ∈ l, Told A (f a) (g a)) : Told A (l.forM f) (l.forM g) := by
  induction l with
  | nil => exact .pure ()
  | cons a l ih =>
    exact (h a List.mem_cons_self).bind fun _ => ih fun b hb => h b (List.mem_cons_of_mem a hb)

/-- A change of the session that is not seen. -/
theorem change {f : Session → Session} (h : ∀ s, Changes s (f s)) :
    Told A (liftM (Play.change f)) (Play.change f) := .silent h

/-- Feats are not seen. -/
theorem skill {f : Session → Session} (h : Session.Skill fun s => ((), f s)) :
    Told A (liftM (Play.change f)) (Play.change f) := .change fun s => .feats (h.feats s)

end Told

end Chronicle

end BlockStage
