/-
  Openings: the start phase is sequential.

  1. **Calls (`Chronicle.leads_call`)** — every call leads on from the phase in which it finds the
     session, and so do calls that are made one after the other, until the session is started again
     (`Phase.Fits.leads`).

  2. **Stops (`Session.Effect.stopsAll`, `Session.Trace.unmoved`)** — once everything is stopped the
     session stays idle, and then nothing more is done for the phase.

  3. **The theorem (`Session.opening_of_idle`)** — from a start on, the moments are a walk of the
     start phase, and what walks tell holds of them (`Session.Opening`): queued start scripts run in
     order, one at a time; looping behaviors and the renewal of templates come after the last, and
     the renewal comes once, or not at all if everything is stopped before.
-/
import BlockStage.Proofs.Chronicle.Templates
import BlockStage.Proofs.Chronicle.Walk

namespace BlockStage

open Session (Trace Change Changes Effect)

/-! ## Calls and runs -/

namespace Chronicle

variable {p : Phase} {s t : Session}

/-- What cannot move the phase on, and is all that a call does. -/
theorem leads_told {α : Type} {c : Chronicle α} {play : Play α} (fits : p.Fits s)
    (told : Told p.Admits c play) : Yields c s fun _ t l => p.Leads l t :=
  (Yields.of_told told (Play.After.any _ s)).mono fun _ _ _ h => .admitted h.2 fits

/-- Calls that run scripts. -/
theorem leads_scriptCall (fits : p.Fits s) {c : ScriptCall} (hc : c = .start → s.running = true) :
    Yields c.watched s fun _ t l => p.Leads l t := by
  have hA : ∀ o : Occasion, o.Scripted → p.Admits o := fun _ h => h.admitted p
  cases c with
  | start =>
    -- a session that runs already only notes that
    have noted : Told p.Admits
        (liftM (Play.change fun s => s.note .info "start ignored: already running"))
        (Play.change fun s => s.note .info "start ignored: already running") :=
      .skill (Session.skill_note _ _)
    refine .ask ?_
    rw [hc rfl]
    exact leads_told fits noted
  | update => exact .ask (leads_updateBy fits _)
  | updateBy dt => exact leads_updateBy fits dt
  | keyDown raw =>
    exact leads_told fits (told_keyDown hA (fun id b key presses loops => by
      cases presses.symm.trans loops) raw).discarded
  | pointerDown position =>
    exact leads_told fits (told_pointerDown hA (fun id b clicks loops => by
      cases clicks.symm.trans loops) position).discarded
  | createClone source => exact leads_told fits (told_createClone hA source).discarded

/-- **One call** leads on from a phase, unless it begins another. -/
theorem leads_call (fits : p.Fits s) {c : Call} (hc : c.run s = .ok () t)
    (going : c = .script .start → s.running = true) : p.Leads (c.watched s).2 t := by
  have watched : (c.watched s).1 = .ok () t := (c.told.same s).trans hc
  -- a call is seen, and then what happens in it
  have seen : ∀ {l : List Moment} {u : Session}, p.Leads l u → p.Leads (⟨.call c, s⟩ :: l) u := by
    rintro l u ⟨q, walk, fits'⟩
    exact ⟨q, .call fits.waits walk, fits'⟩
  have plain : c.Plain → p.Leads [⟨.call c, s⟩] t := by
    intro plain
    have lingers := Session.lingers_plain plain s
    rw [Play.last_of_ok hc] at lingers
    exact seen ⟨p, .stay p, fits.lingers lingers⟩
  cases c with
  | script c =>
    have yields : Yields (Call.script c).watched s fun _ t l => p.Leads l t :=
      .marked ((leads_scriptCall fits fun same => going (congrArg Call.script same)).mono
        fun _ _ _ h => seen h)
    exact yields () t watched
  | broadcast message =>
    have yields : Yields (Call.broadcast message).watched s fun _ t l => p.Leads l t :=
      .marked ((leads_told fits (told_post (fun _ h => h.admitted p) message)).mono
        fun _ _ _ h => seen h)
    exact yields () t watched
  | _ => exact plain trivial

/-- An idle session begins to run, and its start phase begins. -/
theorem leads_start (idle : s.running = false) (hc : (Call.script .start).run s = .ok () t) :
    ∃ l, ((Call.script .start).watched s).2 = ⟨.call (.script .start), s⟩ :: ⟨.start, s⟩ :: l ∧
      (Phase.ready s.startScripts).Leads l t := by
  have yields : Yields (Call.script .start).watched s fun _ t k =>
      ∃ l, k = ⟨.call (.script .start), s⟩ :: ⟨.start, s⟩ :: l ∧
        (Phase.ready s.startScripts).Leads l t := by
    refine .marked ((yields_start idle).mono ?_)
    rintro _ t _ ⟨l, rfl, leads⟩
    exact ⟨l, rfl, leads⟩
  exact yields () t (((Call.script .start).told.same s).trans hc)

end Chronicle

/-- **Calls lead on from a phase**, one after the other, until the session is started anew. -/
theorem Phase.Fits.leads {p : Phase} {s : Session} (fits : p.Fits s) {calls : List Call}
    (returns : s.allReturn calls = true) (once : (s.chronicle calls).any Moment.begins = false) :
    p.Leads (s.chronicle calls) (s.after calls) := by
  induction calls generalizing p s with
  | nil => exact ⟨p, .stay p, fits⟩
  | cons c rest ih =>
    obtain ⟨returned, others⟩ := Bool.and_eq_true_iff.mp returns
    have once : ((c.watched s).2 ++ (c.run.last s).chronicle rest).any Moment.begins = false := once
    rw [List.any_append, Bool.or_eq_false_iff] at once
    rw [Play.returns] at returned
    cases hc : c.run s with
    | error e t =>
      rw [hc] at returned
      cases returned
    | ok a t =>
      have going : c = .script .start → s.running = true := by
        rintro rfl
        refine Bool.not_eq_false _ ▸ fun idle => ?_
        obtain ⟨l, seen, -⟩ := Chronicle.leads_start idle hc
        rw [seen] at once
        cases once.1
      obtain ⟨q, walk, fits⟩ := Chronicle.leads_call fits hc going
      show p.Leads ((c.watched s).2 ++ (c.run.last s).chronicle rest) ((c.run.last s).after rest)
      rw [Play.last_of_ok hc] at others once ⊢
      exact walk.leads (ih fits others once.2)

/-! ## Stopping -/

/-- Is everything stopped on an occasion? -/
def Occasion.StopsAll : Occasion → Prop
  | .call .stopAll => True
  | .call .cleanup => True
  | .call (.loadScene _) => True
  | .work _ _ (.act .stopAll) => True
  | _ => False

namespace Session

variable {s t : Session}

theorem Effect.stopsAll {o : Occasion} (h : Effect o s t) (stops : o.StopsAll) :
    t.running = false := by
  cases h with
  | @plain _ c h =>
    cases c with
    | stopAll => exact s.running_stopAll
    | cleanup => exact Call.idle_of_clears (c := .cleanup) not_false s
    | loadScene scene => exact Call.idle_of_clears (c := .loadScene scene) not_false s
    | _ => exact stops.elim
  | @call _ c h =>
    cases c with
    | script c => exact stops.elim
    | broadcast message => exact stops.elim
    | _ => exact absurd trivial h
  | @work _ entity behavior w h =>
    cases w with
    | act a =>
      cases a with
      | stopAll => exact s.running_stopAll
      | _ => exact stops.elim
    | _ => exact stops.elim
  | _ => exact stops.elim

/-- A session begins to run only by being started. -/
theorem Effect.idle {o : Occasion} (h : Effect o s t) (ho : o ≠ .start)
    (idle : s.running = false) : t.running = false := by
  cases h with
  | start => exact absurd rfl ho
  | plain h => exact (lingers_plain h s).idle idle
  | @work _ entity behavior w h => exact (w.feats entity s).lingers.idle idle
  | clone source => exact (s.lingers_requestClone source).idle idle
  | complete h => exact absurd h (Bool.eq_false_iff.mp idle)
  | _ => exact idle

/-- What is stopped stays so along a trace without a start. -/
theorem Trace.idle {A : Occasion → Prop} {l : List Moment} (h : Trace A s l t)
    (once : ∀ k ∈ l, k.begins = false) (idle : s.running = false) : t.running = false := by
  induction h with
  | start => exact idle
  | change _ k ih => exact k.lingers.idle (ih once)
  | @moment l t u o _ ho k ih =>
    obtain ⟨before, last⟩ := List.forall_mem_append.mp once
    refine k.idle ?_ (ih before)
    rintro rfl
    cases last _ List.mem_cons_self

/-- Once everything is stopped, nothing more is done for the phase. -/
theorem Trace.unmoved {A : Occasion → Prop} {l : List Moment} (h : Trace A s l t)
    (once : ∀ k ∈ l, k.begins = false) (idle : s.running = false) : ∀ k ∈ l, k.moves = false := by
  intro k hk
  obtain ⟨front, back, rfl⟩ := List.append_of_mem hk
  obtain ⟨between, -, w, effect, -⟩ := h.split
  have still := between.idle (fun x hx => once x (List.mem_append_left _ hx)) idle
  have never : ¬k.session.running = true := Bool.eq_false_iff.mp still
  obtain ⟨o, u⟩ := k
  cases effect with
  | update running => exact absurd running never
  | opened entity b others running => exact absurd running never
  | complete running => exact absurd running never
  | _ => rfl

end Session

/-- **A phase that is over has been completed once**, after the last start script was over. -/
theorem Phase.Walk.completed {starts : List (String × Behavior)} {l : List Moment}
    (walk : Phase.Walk (.ready starts) l .ended) :
    ∃ before u after, l = before ++ ⟨.complete, u⟩ :: after ∧
      before.filterMap Moment.opened? = starts ∧
      before.filterMap Moment.closed? = starts.map Phase.key ∧
      (∀ k ∈ before, k.Early) ∧ ∀ k ∈ after, k.occasion ≠ .complete := by
  obtain ⟨⟨o, u⟩, hk, same⟩ := walk.completes fun same => by cases same
  obtain rfl : o = .complete := same
  obtain ⟨before, after, hl⟩ := List.append_of_mem hk
  obtain ⟨r, first, last⟩ := walk.split hl rfl
  obtain ⟨rfl, later⟩ := last.of_complete
  have order : before.filterMap Moment.opened? = starts :=
    (List.append_nil _).symm.trans first.accounts.order
  have finish := first.accounts.finish.trans (List.append_nil _)
  refine ⟨before, u, after, hl, order, ?_, first.early fun same => (by cases same),
    later.never_again⟩
  rw [← order]
  exact finish.symm

namespace Session

variable {s t : Session}

/-! ## The specification -/

/-- What can be said of a start phase: of the session that is started, the moments from then on, the
    phase in the end, and the session then. -/
structure Opening (s : Session) (l : List Moment) (p : Phase) (t : Session) : Prop where
  /-- Calls that are watched end as they do, and change the session as they do. -/
  same : ∀ (c : Call) (u : Session), (c.watched u).1 = c.run u
  /-- The moments are a walk from the phase in which all start scripts are to begin, entity by
      entity and in the order of catalogs. -/
  walk : Phase.Walk (.ready s.startScripts) l p
  /-- Between calls, one start script is paused or the phase is over, if the session runs. -/
  waits : t.running = true → p.Waits
  /-- Start scripts begin in order. -/
  order : l.filterMap Moment.opened? ++ p.pending = s.startScripts
  /-- Those that have begun are over, in the same order, but for the one that is paused. -/
  single : l.filterMap Moment.closed? ++ p.unfinished
    = (l.filterMap Moment.opened?).map Phase.key
  /-- At any time they are but for one at most. -/
  lone : ∀ front, front <+: l → ∃ still, (front.filterMap Moment.opened?).map Phase.key
    = front.filterMap Moment.closed? ++ still ∧ still.length ≤ 1
  /-- When one begins, all before it in the queue have begun and are over. -/
  turn : ∀ before entity b u after, l = before ++ ⟨.opened entity b, u⟩ :: after →
    ∃ first rest, s.startScripts = first ++ (entity, b) :: rest ∧
      before.filterMap Moment.opened? = first ∧
      before.filterMap Moment.closed? = first.map Phase.key
  /-- Until the phase has been completed, every update looks at the one start script that has begun
      and is not over; if its entity has been stopped or has left, then it is over at once. -/
  update : ∀ before u after, l = before ++ ⟨.update, u⟩ :: after →
    (∀ k ∈ before, k.occasion ≠ .complete) → ∃ t v m, after = ⟨.fetched t, v⟩ :: m ∧
      (before.filterMap Moment.opened?).map Phase.key
        = before.filterMap Moment.closed? ++ [t.key] ∧
      (v.mayRun t.entity = false → ∃ w m', m = ⟨.closed t.entity t.behavior, w⟩ :: m')
  /-- Until the phase is over it is not completed, and no looping behavior is launched. -/
  early : p ≠ .ended → ∀ k ∈ l, k.Early
  /-- It is over by being completed once, after the last start script is over. -/
  completed : p = .ended → ∃ before u after, l = before ++ ⟨.complete, u⟩ :: after ∧
    before.filterMap Moment.opened? = s.startScripts ∧
    before.filterMap Moment.closed? = s.startScripts.map Phase.key ∧
    (∀ k ∈ before, k.Early) ∧ ∀ k ∈ after, k.occasion ≠ .complete
  /-- A template changes only then, or if the host saves it or clears the stage. -/
  template : ∀ before k after id, ⟨.start, s⟩ :: l = before ++ k :: after →
    k.occasion ≠ .complete → ¬k.Saves id →
    (Moment.next after t).templates.get? id = k.session.templates.get? id
  /-- Then every original on stage that has a template gets its present catalog. -/
  renewed : ∀ before u after id, l = before ++ ⟨.complete, u⟩ :: after →
    (Moment.next after t).templates.get? id = u.renewed? id
  /-- When everything is stopped, there is no update from then on, no start script begins, and the
      phase is not completed. -/
  stopped : ∀ before k after, l = before ++ k :: after → k.occasion.StopsAll →
    ∀ j ∈ after, j.moves = false

/-- What a walk tells, and what is known of templates and of stops along a trace. -/
theorem opening_of_walk {A : Occasion → Prop} {v : Session} {l : List Moment} {p : Phase}
    (walk : Phase.Walk (.ready s.startScripts) l p) (fits : p.Fits t)
    (trace : Trace A v (⟨.start, s⟩ :: l) t) : s.Opening l p t where
  same c := c.told.same
  walk := walk
  waits := fits.waits
  order := walk.accounts.order
  single := walk.accounts.finish.symm
  lone := walk.lone
  turn before entity b u after hl := by
    obtain ⟨r, first, last⟩ := walk.split hl rfl
    obtain ⟨rest, rfl⟩ := last.of_opened
    refine ⟨_, rest, first.accounts.order.symm, rfl, ?_⟩
    have finish := first.accounts.finish
    exact (finish.trans (List.append_nil _)).symm
  update before u after hl uncompleted := by
    obtain ⟨r, first, last⟩ := walk.split hl rfl
    have going : r ≠ .ended := by
      rintro rfl
      obtain ⟨k, hk, same⟩ := first.completes fun same => by cases same
      exact uncompleted k hk same
    obtain ⟨t, rest, v, m, rfl, later, gone⟩ := last.of_update going
    exact ⟨t, v, m, later, first.accounts.finish, gone⟩
  early hp := walk.early hp
  completed hp := by
    subst hp
    exact walk.completed
  template before k after id hl ho hid := by
    obtain ⟨-, -, u, effect, rest⟩ := (hl ▸ trace).split
    rw [rest.next.templates]
    exact effect.template ho hid
  renewed before u after id hl := by
    have trace : Trace A v ((⟨.start, s⟩ :: before) ++ ⟨.complete, u⟩ :: after) t := by
      rwa [List.cons_append, ← hl]
    obtain ⟨-, -, w, effect, rest⟩ := trace.split
    rw [rest.next.templates]
    cases effect with
    | complete h => exact get?_finishStart _ id
  stopped before k after hl stops j hj := by
    have trace : Trace A v ((⟨.start, s⟩ :: before) ++ k :: after) t := by
      rwa [List.cons_append, ← hl]
    obtain ⟨-, -, u, effect, rest⟩ := trace.split
    have once : ∀ x ∈ after, x.begins = false := fun x hx => walk.never_begins x <| by
      rw [hl]
      exact List.mem_append_right _ (List.mem_cons_of_mem _ hx)
    exact rest.unmoved once (effect.stopsAll stops) j hj

/-- **The start phase is sequential**: whatever start scripts there are, and whatever the host and
    other scripts do meanwhile, from the start on until the session is started again. -/
theorem opening_of_idle (idle : s.running = false) {calls : List Call}
    (returns : s.allReturn (.script .start :: calls) = true)
    (once : ((s.after [.script .start]).chronicle calls).any Moment.begins = false) :
    ∃ l p, s.chronicle (.script .start :: calls)
        = ⟨.call (.script .start), s⟩ :: ⟨.start, s⟩ :: l ∧
      s.Opening l p (s.after (.script .start :: calls)) := by
  obtain ⟨returned, others⟩ := Bool.and_eq_true_iff.mp returns
  rw [Play.returns] at returned
  cases hc : (Call.script .start).run s with
  | error e u =>
    rw [hc] at returned
    cases returned
  | ok a u =>
    have last : (Call.script .start).run.last s = u := Play.last_of_ok hc
    rw [last] at others
    have once : (u.chronicle calls).any Moment.begins = false := last ▸ once
    -- the first call is the start, and from there the other calls lead on
    obtain ⟨l, seen, first, walk, fits⟩ := Chronicle.leads_start idle hc
    obtain ⟨p, rest, fits⟩ := fits.leads others once
    have whole := walk.trans rest
    have moments : s.chronicle (.script .start :: calls)
        = ⟨.call (.script .start), s⟩ :: ⟨.start, s⟩ :: (l ++ u.chronicle calls) := by
      show ((Call.script .start).watched s).2 ++ _ = _
      rw [seen, last]
      rfl
    have trace : Trace (fun _ => True) s ([] ++ ⟨.call (.script .start), s⟩ ::
        ⟨.start, s⟩ :: (l ++ u.chronicle calls)) (s.after (.script .start :: calls)) :=
      moments ▸ s.trace_chronicle (.script .start :: calls)
    have same : s.after (.script .start :: calls) = u.after calls := congrArg (after · calls) last
    obtain ⟨-, -, v, -, trace⟩ := trace.split
    refine ⟨l ++ u.chronicle calls, p, moments, opening_of_walk whole ?_ trace⟩
    rw [same]
    exact fits

/-- Someone waits for a key in the first start script, and then has another and a loop. -/
def rousing : Session :=
  (fresh .usual (Generator.ofSeed 0) 5).after
    [.register (Spawn.new "a"),
      .addBehaviors "a" ⟨[⟨0, .start, [.waitUntil (.keyHeld (.named .space))]⟩,
        ⟨1, .start, [.action .nextCostume]⟩, ⟨2, .forever, []⟩], [], 3⟩,
      .saveTemplate "a"]

/-- The first start script is taken up in vain in one update, a clone is made meanwhile, and after
    the key has been pressed it is over; then comes the second, and the phase ends in the same
    update. -/
theorem opening_rousing :
    (∃ l p, rousing.chronicle [.script .start, .script (.updateBy 0), .script (.createClone "a"),
        .script (.keyDown "space"), .script (.updateBy 0)]
        = ⟨.call (.script .start), rousing⟩ :: ⟨.start, rousing⟩ :: l ∧
      rousing.Opening l p (rousing.after [.script .start, .script (.updateBy 0),
        .script (.createClone "a"), .script (.keyDown "space"), .script (.updateBy 0)])) ∧
      (rousing.chronicle [.script .start, .script (.updateBy 0), .script (.createClone "a"),
        .script (.keyDown "space"), .script (.updateBy 0)]).filterMap Moment.closed?
        = [("a", 0), ("a", 1)] :=
  ⟨opening_of_idle (by decide +kernel) (by decide +kernel) (by decide +kernel), by decide +kernel⟩

end Session

end BlockStage
