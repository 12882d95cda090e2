/-
  Traces: how a session gets from one moment to the next.

  1. **Specification (`Session.Trace`)** — between two moments of a trace the session changes only in
     a few silent ways (`Session.Change`), and at a moment it changes as its occasion says
     (`Session.Effect`).  Besides, every occasion of a trace is of some kind, so that it can be said
     what is never seen in a part of a call.

  2. What changes and effects keep is kept from moment to moment, and every moment splits a trace
     into what comes before it and what follows (`Trace.split`).
-/
import BlockStage.Proofs.Chronicle.Watch
import BlockStage.Proofs.Session.Chores

namespace BlockStage

/-! ## Occasions -/

namespace Occasion

/-- What is seen of a script that runs, and of the start scripts of the clones that it makes. -/
def Scripted : Occasion → Prop
  | .work _ _ _ => True
  | .clone _ => True
  | .post _ => True
  | .launch _ b => Play.startsClone b.trigger = true
  | _ => False

/-- What is seen of the start phase. -/
def Starting : Occasion → Prop
  | .opened _ _ => True
  | .parked _ => True
  | .fetched _ => True
  | .closed _ _ => True
  | .complete => True
  | o => o.Scripted

/-- What is seen when messages are delivered. -/
def Delivering : Occasion → Prop
  | .deliver _ => True
  | .visit _ => True
  | .turn _ _ => True
  | .delivered _ _ => True
  | .launch _ b => b.trigger ≠ .forever
  | o => o.Scripted

/-- What is seen in a call once it has begun. -/
def Going : Occasion → Prop
  | .call _ => False
  | .start => False
  | _ => True

theorem Scripted.going {o : Occasion} (h : o.Scripted) : o.Going := by
  cases o with
  | call | start => exact h.elim
  | _ => exact trivial

end Occasion

/-- What an action has done at once.  Making a clone and queueing a message are occasions of their
    own, so nothing has been done yet. -/
def Action.outcome (entity : String) (a : Action) (s : Session) : Session :=
  match a with
  | .createClone _ => s
  | .broadcast _ => s
  | a => (Play.perform (fun _ => return ()) entity a).last s

/-- What has been done at once when a script does something. -/
def Work.outcome (entity : String) : Work → Session → Session
  | .act a, s => a.outcome entity s
  | _, s => s

/-- What is done at once comes down to feats. -/
theorem Work.feats (entity : String) (w : Work) (s : Session) :
    Session.Feats s (w.outcome entity s) := by
  cases w with
  | act a =>
    show Session.Feats s (a.outcome entity s)
    rw [Action.outcome.eq_def]
    split
    · exact .refl s
    · exact .refl s
    · rename_i noClone noMessage
      refine (Play.weaving_tricks.perform entity a ?_ ?_ s).feats
      · exact fun source h => (noClone source h).elim
      · exact fun message h => (noMessage message h).elim
  | _ => exact .refl s

namespace Session

/-! ## Changes and effects -/

/-- A change of a session that is not seen. -/
inductive Change : Session → Session → Prop where
  | feat {s t : Session} (h : Feat s t) : Change s t
  | tasks {s : Session} (waiting : List Task) (active : List (String × Nat)) :
    Change s { s with scheduler := { s.scheduler with waiting := waiting, active := active } }
  | idle {s : Session} (h : s.running = false) : Change s { s with scheduler := .idle }
  | queue {s : Session} (starts : List String) (draining : Bool) :
    Change s { s with cloneStarts := starts, draining := draining }

/-- When an occasion can be, and what it does to a session. -/
inductive Effect : Occasion → Session → Session → Prop where
  | call {s : Session} {c : Call} (h : ¬c.Plain) : Effect (.call c) s s
  | plain {s : Session} {c : Call} (h : c.Plain) : Effect (.call c) s (c.run.last s)
  | start {s : Session} (h : s.running = false) : Effect .start s s.begun
  | update {s : Session} (h : s.running = true) : Effect .update s { s with inbox := [] }
  | work {s : Session} {entity : String} {behavior : Nat} {w : Work}
    (h : s.mayRun entity = true) : Effect (.work entity behavior w) s (w.outcome entity s)
  | launch {s : Session} {entity : String} {b : Behavior} (hr : s.running = true)
    (h : s.scheduler.isActive entity b.id = false) :
    Effect (.launch entity b) s { s with scheduler := s.scheduler.activate entity b.id }
  | clone {s : Session} (source : String) : Effect (.clone source) s (s.requestClone source).2
  | post {s : Session} {message : String} (h : message ≠ "") :
    Effect (.post message) s
      ({ s with inbox := s.inbox ++ [message] }.note .event ("broadcast " ++ message))
  | deliver {s : Session} (message : String) : Effect (.deliver message) s s
  | visit {s : Session} (entity : String) : Effect (.visit entity) s s
  | turn {s : Session} (entity : String) (b : Behavior) : Effect (.turn entity b) s s
  | delivered {s : Session} (message : String) (handlers : Nat) :
    Effect (.delivered message handlers) s (s.emit (.messageDelivered message handlers))
  | opened {s : Session} (entity : String) (b : Behavior) (rest : List (String × Behavior))
    (h : s.running = true) :
    Effect (.opened entity b) s { s with scheduler := { s.scheduler with startQueue := rest } }
  | parked {s : Session} (t : Task) :
    Effect (.parked t) s { s with scheduler := { s.scheduler with startTask := some t } }
  | fetched {s : Session} {t : Task} (h : s.scheduler.startTask = some t) :
    Effect (.fetched t) s { s with scheduler := { s.scheduler with startTask := none } }
  | closed {s : Session} (entity : String) (behavior : Nat) : Effect (.closed entity behavior) s s
  | complete {s : Session} (h : s.running = true) :
    Effect .complete s
      (Play.finishStart { s with scheduler := { s.scheduler with starting := false } })

/-- Any number of changes. -/
def Changes : Session → Session → Prop := Relation.ReflTransGen Change

namespace Changes

variable {s t u : Session}

theorem refl (s : Session) : Changes s s := Relation.ReflTransGen.refl

theorem one (h : Change s t) : Changes s t := Relation.ReflTransGen.single h

theorem feats (h : Feats s t) : Changes s t := by
  induction h with
  | refl => exact .refl s
  | tail _ feat ih => exact ih.tail (.feat feat)

end Changes

/-! ## Traces -/

/-- The session has changed from one into another, and these moments have passed, all of them on
    occasions of some kind. -/
inductive Trace (A : Occasion → Prop) (s : Session) : List Moment → Session → Prop where
  | start : Trace A s [] s
  | change {l : List Moment} {t u : Session} (h : Trace A s l t) (k : Change t u) : Trace A s l u
  | moment {l : List Moment} {t u : Session} {o : Occasion} (h : Trace A s l t) (ho : A o)
    (k : Effect o t u) : Trace A s (l ++ [⟨o, t⟩]) u

namespace Trace

variable {A B : Occasion → Prop} {s t u : Session} {l m : List Moment}

theorem changes (h : Trace A s l t) (k : Changes t u) : Trace A s l u := by
  induction k with
  | refl => exact h
  | tail _ change ih => exact ih.change change

theorem trans (h : Trace A s l t) (k : Trace A t m u) : Trace A s (l ++ m) u := by
  induction k with
  | start =>
    rw [List.append_nil]
    exact h
  | change _ change ih => exact ih.change change
  | moment _ ho effect ih =>
    rw [← List.append_assoc]
    exact ih.moment ho effect

theorem mono (hA : ∀ o, A o → B o) (h : Trace A s l t) : Trace B s l t := by
  induction h with
  | start => exact .start
  | change _ change ih => exact ih.change change
  | moment _ ho effect ih => exact ih.moment (hA _ ho) effect

/-- What changes and effects keep is kept by a trace. -/
theorem keep {I : Session → Prop} (change : ∀ {s t}, Change s t → I s → I t)
    (effect : ∀ {o s t}, A o → Effect o s t → I s → I t) (h : Trace A s l t) (hs : I s) : I t := by
  induction h with
  | start => exact hs
  | change _ k ih => exact change k ih
  | moment _ ho k ih => exact effect ho k ih

/-- Every moment is on an occasion of the kind. -/
theorem kind (h : Trace A s l t) : ∀ m ∈ l, A m.occasion := by
  induction h with
  | start => exact fun _ hm => (List.not_mem_nil hm).elim
  | change _ _ ih => exact ih
  | moment _ ho _ ih =>
    intro m hm
    rcases List.mem_append.mp hm with old | new
    · exact ih m old
    · exact List.mem_singleton.mp new ▸ ho

/-- **A moment splits a trace**: before it comes a trace that ends there, at the moment its occasion
    takes effect, and then follows another trace. -/
theorem split {before after : List Moment} {m : Moment}
    (h : Trace A s (before ++ m :: after) t) :
    Trace A s before m.session ∧ A m.occasion ∧
      ∃ u, Effect m.occasion m.session u ∧ Trace A u after t := by
  generalize hl : before ++ m :: after = l at h
  induction h generalizing after with
  | start => exact (List.append_ne_nil_of_right_ne_nil _ (List.cons_ne_nil _ _) hl).elim
  | change _ k ih =>
    obtain ⟨first, kind, u, effect, rest⟩ := ih hl
    exact ⟨first, kind, u, effect, rest.change k⟩
  | moment h ho k ih =>
    -- the last moment is either the one at which the trace is split or one of those that follow
    rcases List.eq_nil_or_concat after with rfl | ⟨others, last, rfl⟩
    · obtain ⟨rfl, same⟩ := List.append_inj' hl rfl
      obtain rfl := (List.cons.inj same).1
      exact ⟨h, ho, _, k, .start⟩
    · rw [List.concat_eq_append, ← List.cons_append, ← List.append_assoc] at hl
      obtain ⟨front, same⟩ := List.append_inj' hl rfl
      obtain ⟨first, kind, u, effect, rest⟩ := ih front
      obtain rfl := (List.cons.inj same).1
      exact ⟨first, kind, u, effect, by
        rw [List.concat_eq_append]
        exact rest.moment ho k⟩

end Trace

end Session

end BlockStage
