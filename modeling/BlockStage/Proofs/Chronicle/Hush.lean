/-
  Hushed sessions: when everything is stopped.

  1. **Being hushed (`Session.Hushed`)** — a session that is stopped as a whole is idle, and everyone
     on its stage rests.  So nobody listens for whatever event (`Hushed.listeners`).

  2. **Being undivided (`Session.Undivided`)** — nothing that scripts do takes a running session to
     anything in between, as long as they are seen only while it is running
     (`Session.Trace.undivided`).

  3. **Along a trace** — a session that is idle at some moment of a call is idle at all that follow
     (`Session.Trace.still`), and hosts are told of the deliveries that are over whether or not it is
     (`Session.Trace.heard`).
-/
import BlockStage.Proofs.Chronicle.Opening
import BlockStage.Proofs.Chronicle.Post
import BlockStage.Proofs.Stage.Rest

namespace BlockStage

open Session (Trace Change Feat Feats)

/-! ## Hushed sessions -/

namespace Session

variable {s t : Session}

/-- Everything is stopped: the session is idle, and everyone rests. -/
structure Hushed (s : Session) : Prop where
  idle : s.running = false
  rests : ∀ id, s.stage.Rests id

/-- The session is running, or everything is stopped. -/
def Undivided (s : Session) : Prop := s.running = true ∨ s.Hushed

/-- Nobody listens in a hushed session. -/
theorem Hushed.listeners (h : s.Hushed) (kind : EventKind) : s.listeners kind = [] := by
  refine List.filter_eq_nil_iff.mpr fun id _ listens => ?_
  have live := (Bool.and_eq_true_iff.mp listens).2
  rw [isLive, handle?] at live
  cases found : s.stage.find? id with
  | none =>
    rw [found] at live
    cases live
  | some x =>
    rw [found] at live
    dsimp only at live
    rw [h.rests id x found] at live
    cases live

theorem Hushed.same (h : s.Hushed) (running : t.running = s.running)
    (stage : s.stage.Calm t.stage) : t.Hushed :=
  ⟨running.trans h.idle, fun id => (h.rests id).calm stage⟩

theorem hushed_stopAll (order : s.stage.Orderly) (hs : s.Undivided) : s.stopAll.Hushed := by
  rcases hs with running | hushed
  · have stage : s.stopAll.stage = s.stage.setAllStopped true := by
      rw [stopAll, running]
      rfl
    exact ⟨s.running_stopAll, fun id => stage ▸ order.rests_setAllStopped id⟩
  · have same : s.stopAll = s := by
      rw [stopAll, hushed.idle]
      rfl
    rw [same]
    exact hushed

namespace Undivided

theorem same (hs : s.Undivided) (running : t.running = s.running)
    (stage : s.stage.Calm t.stage) : t.Undivided :=
  hs.imp running.trans fun hushed => hushed.same running stage

theorem feat (h : Feat s t) (order : s.stage.Orderly) (hs : s.Undivided) : t.Undivided := by
  cases h with
  | beside h =>
    have running : t.running = s.running := by
      rw [h.rest]
      rfl
    have stage : t.stage = s.stage := by
      rw [h.rest]
      rfl
    exact hs.same running (stage ▸ .refl _)
  | stage h => exact hs.same rfl h
  | write id key v => exact hs.same rfl (.refl _)
  | loop loop body h => exact hs.same rfl (.refl _)
  | delete gone =>
    refine hs.imp (s.mute_deleteEntity gone).1.trans fun hushed => ?_
    rcases deleteEntity_cases order gone with ⟨-, same⟩ | ⟨h, stage, despawned, left⟩
    · rw [same]
      exact ⟨hushed.idle, hushed.rests⟩
    · rw [left]
      exact ⟨hushed.idle, fun id => (hushed.rests id).despawned order despawned⟩
  | stop => exact .inr (hushed_stopAll order hs)

theorem feats (h : Feats s t) (hr : s.Registry) (hs : s.Undivided) : t.Undivided := by
  -- the registry goes along, since leaving is described by the order of the stage
  have both : t.Registry ∧ t.Undivided := by
    induction h with
    | refl => exact ⟨hr, hs⟩
    | tail _ k ih => exact ⟨ih.1.deed k.deed, ih.2.feat k ih.1.stage⟩
  exact both.2

theorem change (h : Change s t) (order : s.stage.Orderly) (hs : s.Undivided) : t.Undivided := by
  cases h with
  | feat h => exact hs.feat h order
  | _ => exact hs.same rfl (.refl _)

end Undivided

/-- **A running session stays undivided** as long as everything is seen while it is running. -/
theorem Trace.undivided {A : Occasion → Prop} {l : List Moment} (h : Trace A s l t)
    (hA : ∀ o, A o → o.Inner) (hr : s.Registry) (lively : ∀ k ∈ l, k.session.running = true)
    (running : s.running = true) : t.Undivided := by
  induction h with
  | start => exact .inl running
  | change h k ih => exact (ih lively).change k (stable_registry.trace h hr).stage
  | @moment l t u o h ho k _ =>
    have running : t.running = true := lively _ (List.mem_append_right _ List.mem_cons_self)
    cases k with
    | call | plain | start | update => exact (hA _ ho).elim
    | @work _ entity behavior w _ =>
      exact Undivided.feats (w.feats entity t) (stable_registry.trace h hr) (.inl running)
    | clone source => exact .inl ((t.mute_requestClone source).1.trans running)
    | complete _ => exact .inl ((mute_finishStart _).1.trans running)
    | _ => exact .inl running

end Session

/-! ## Along a trace -/

/-- Within a call no idle session begins to run. -/
theorem Occasion.Inner.never_begins {k : Moment} (h : k.occasion.Inner) : k.begins = false := by
  obtain ⟨o, u⟩ := k
  cases o with
  | start => exact h.elim
  | _ => rfl

namespace Session

variable {s t : Session}

/-- If the session is idle at the next moment, then also at all others, and in the end. -/
theorem Trace.still {A : Occasion → Prop} {l : List Moment} (h : Trace A s l t)
    (hA : ∀ o, A o → o.Inner) (idle : (Moment.next l t).running = false) :
    t.running = false ∧ ∀ j ∈ l, j.session.running = false := by
  cases l with
  | nil => exact ⟨idle, fun _ hj => (List.not_mem_nil hj).elim⟩
  | cons j rest =>
    obtain ⟨-, inner, u, effect, later⟩ := (show Trace A s ([] ++ j :: rest) t from h).split
    have once : ∀ k ∈ rest, k.begins = false := fun k hk => (hA _ (later.kind k hk)).never_begins
    have stopped : u.running = false := by
      refine effect.idle (fun start => ?_) idle
      rw [start] at inner
      exact hA _ inner
    refine ⟨later.idle once stopped, fun i hi => ?_⟩
    rcases List.mem_cons.mp hi with rfl | hi
    · exact idle
    · obtain ⟨front, back, rfl⟩ := List.append_of_mem hi
      exact later.split.1.idle (fun k hk => once k (List.mem_append_left _ hk)) stopped

theorem Feat.heard (h : Feat s t) : t.heard = s.heard := by
  cases h with
  | beside h => exact h.heard
  | delete id => exact (s.mute_deleteEntity id).2.2
  | stop =>
    rw [stopAll]
    split
    · rfl
    · show (s.events ++ [Event.stopped]).filterMap Event.heard? = s.heard
      rw [List.filterMap_append]
      exact List.append_nil _
  | _ => rfl

theorem Feats.heard (h : Feats s t) : t.heard = s.heard := by
  induction h with
  | refl => rfl
  | tail _ k ih => exact k.heard.trans ih

/-- **Hosts are told of the deliveries that are seen to be over**, whether or not the session keeps
    running. -/
theorem Trace.heard {A : Occasion → Prop} {l : List Moment} (h : Trace A s l t)
    (hA : ∀ o, A o → o.Inner) : t.heard = s.heard ++ l.filterMap Moment.delivered? := by
  induction h with
  | start => exact (List.append_nil _).symm
  | change _ k ih =>
    cases k with
    | feat k => exact k.heard.trans ih
    | _ => exact ih
  | @moment l t u o _ ho k ih =>
    -- besides the end of a delivery nothing is reported
    have quiet : Moment.delivered? ⟨o, t⟩ = none → u.heard = t.heard →
        u.heard = s.heard ++ List.filterMap Moment.delivered? (l ++ [⟨o, t⟩]) := by
      intro none same
      rw [List.filterMap_append, List.filterMap_cons_none none, List.filterMap_nil, List.append_nil]
      exact same.trans ih
    cases k with
    | call | plain | start | update => exact (hA _ ho).elim
    | delivered m n =>
      rw [List.filterMap_append, ← List.append_assoc, ← ih]
      exact List.filterMap_append
    | @work _ entity behavior w _ => exact quiet rfl (w.feats entity t).heard
    | clone source => exact quiet rfl (t.mute_requestClone source).2.2
    | complete _ => exact quiet rfl (mute_finishStart _).2.2
    | _ => exact quiet rfl rfl

end Session

end BlockStage
