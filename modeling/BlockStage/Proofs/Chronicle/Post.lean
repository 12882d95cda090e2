/-
  Post: messages are neither lost, doubled nor reordered.

  1. **One call (`Session.Carried`)** — an update that finds the session running and leaves it
     running delivers just the messages that were queued when it began, in order, each in one
     delivery and with one report to the host; every other call delivers none.  What is posted
     meanwhile, by whatever script or by the host, is queued after what is still there.

  2. **The crux (`Chronicle.Carriage`)** — an update takes the queue before anything else is done,
     and delivers last.  Up to then nothing is seen that has to do with deliveries (`Occasion.Quiet`).

  3. **Runs (`Session.Postal`)** — so the deliveries of a run, followed by what is still queued, are
     what was queued in the beginning followed by all that has been posted; and a message is
     delivered in the first update that begins after it has been posted.
-/
import BlockStage.Proofs.Chronicle.Delivery

namespace BlockStage

open Session (Trace Ready Ledger)

/-! ## Quiet occasions -/

/-- An occasion that has nothing to do with a delivery: it is none of its steps, and no behavior is
    launched for a message. -/
def Occasion.Quiet : Occasion → Prop
  | .deliver _ => False
  | .visit _ => False
  | .turn _ _ => False
  | .delivered _ _ => False
  | .launch _ b => ∀ message, b.trigger ≠ .message message
  | _ => True

/-- An occasion within a call that is quiet. -/
def Occasion.Preparing (o : Occasion) : Prop := o.Quiet ∧ o.Inner

theorem Occasion.Scripted.preparing {o : Occasion} (h : o.Scripted) : o.Preparing := by
  cases o with
  | launch id b =>
    refine ⟨fun message waits => ?_, trivial⟩
    have starts : Play.startsClone b.trigger = true := h
    rw [waits] at starts
    cases starts
  | work | clone | post => exact ⟨trivial, trivial⟩
  | _ => exact h.elim

theorem Occasion.Starting.preparing {o : Occasion} (h : o.Starting) : o.Preparing := by
  cases o with
  | opened | parked | fetched | closed | complete => exact ⟨trivial, trivial⟩
  | _ => exact Occasion.Scripted.preparing h

theorem Occasion.Delivering.inner {o : Occasion} (h : o.Delivering) : o.Inner := by
  cases o with
  | call | start | update => exact h.elim
  | _ => trivial

/-- A quiet moment tells of no delivery. -/
theorem Moment.silent_of_quiet {l : List Moment} (h : ∀ k ∈ l, k.occasion.Quiet) :
    l.filterMap Moment.begun? = [] ∧ l.filterMap Moment.delivered? = [] := by
  have silent : ∀ k : Moment, k.occasion.Quiet →
      Moment.begun? k = none ∧ Moment.delivered? k = none := by
    rintro ⟨o, s⟩ ho
    cases o with
    | deliver | delivered => exact ho.elim
    | _ => exact ⟨rfl, rfl⟩
  exact ⟨List.filterMap_eq_nil_iff.mpr fun k hk => (silent k (h k hk)).1,
    List.filterMap_eq_nil_iff.mpr fun k hk => (silent k (h k hk)).2⟩

namespace Delivery

/-- Every delivery begins once. -/
theorem begun {ds : List Delivery} (h : ∀ d ∈ ds, d.Proper) :
    (ds.flatMap moments).filterMap Moment.begun? = ds.map message := by
  induction ds with
  | nil => rfl
  | cons d ds ih =>
    have rest := ih fun e he => h e (List.mem_cons_of_mem d he)
    have alone := (h d List.mem_cons_self).alone.1
    rw [List.flatMap_cons, List.filterMap_append, rest, List.map_cons, moments]
    show d.message :: List.filterMap Moment.begun? (d.body ++ [_]) ++ _ = _
    rw [List.filterMap_append, alone]
    rfl

/-- Every delivery is over once. -/
theorem delivered {ds : List Delivery} (h : ∀ d ∈ ds, d.Proper) :
    (ds.flatMap moments).filterMap Moment.delivered? = ds.map fun d => (d.message, d.handlers) := by
  induction ds with
  | nil => rfl
  | cons d ds ih =>
    have rest := ih fun e he => h e (List.mem_cons_of_mem d he)
    have alone := (h d List.mem_cons_self).alone.2
    rw [List.flatMap_cons, List.filterMap_append, rest, List.map_cons, moments]
    show List.filterMap Moment.delivered? (d.body ++ [_]) ++ _ = _
    rw [List.filterMap_append, alone]
    rfl

end Delivery

/-! ## Updates -/

namespace Chronicle

variable {α β : Type} {s t : Session}

/-- Part of an update, to its end: it is a trace, and if the session runs in the end, then first
    come quiet moments, and last the deliveries of the given messages. -/
structure Carriage (messages : List String) (s : Session) (l : List Moment) (t : Session) :
    Prop where
  trace : Trace Occasion.Inner s l t
  brought : t.running = true → ∃ (front : List Moment) (ds : List Delivery),
    l = front ++ ds.flatMap Delivery.moments ∧
    (∀ k ∈ front, k.occasion.Quiet) ∧ ds.map Delivery.message = messages ∧ ∀ d ∈ ds, d.Proper

/-- Deliveries are carried after what prepares them. -/
theorem Carriage.after {messages : List String} {u : Session} {l m : List Moment}
    (h : Trace Occasion.Preparing s l t) (k : Carriage messages t m u) :
    Carriage messages s (l ++ m) u := by
  refine ⟨(h.mono fun _ ho => ho.2).trans k.trace, fun running => ?_⟩
  obtain ⟨front, ds, rfl, quiet, same, proper⟩ := k.brought running
  refine ⟨l ++ front, ds, (List.append_assoc _ _ _).symm, fun j hj => ?_, same, proper⟩
  rcases List.mem_append.mp hj with first | last
  · exact (h.kind j first).1
  · exact quiet j last

/-! ### Rounds -/

section
variable {Q : Session → List Moment → Session → Prop}
  (prepared : ∀ {s t u : Session} {l m : List Moment},
    Trace Occasion.Preparing s l t → Q t m u → Q s (l ++ m) u)
include prepared

/-- A step that prepares deliveries. -/
theorem yields_prepared {c : Chronicle α} {p : Play α} {f : α → Chronicle β} (hs : s.Ready)
    (told : Told Occasion.Preparing c p) (restores : Play.Restores (Ledger false []) p)
    (hf : ∀ a t, t.Ready → Yields (f a) t fun _ u l => Q t l u) :
    Yields (c >>= f) s fun _ u l => Q s l u := by
  refine (Yields.of_told told (restores s hs.ledger)).bind ?_
  rintro a t l ⟨ledger, trace⟩
  exact (hf a t (hs.trace trace ledger)).mono fun _ u m h => prepared trace h

/-- **An update delivers last**: it takes the queue, and what it does up to the deliveries prepares
    them. -/
theorem yields_round (hs : s.Ready) (running : s.running = true) (dt : Float32)
    (deliver : ∀ t : Session, t.Ready → Yields (do
      if ← Play.ask Session.running then deliverMessages s.inbox
      Play.countPhase "messages") t fun _ u l => Q t l u) :
    Yields (updateBy dt) s fun _ t l =>
      ∃ rest, l = ⟨.update, s⟩ :: rest ∧ Q { s with inbox := [] } rest t := by
  have hA : ∀ o : Occasion, o.Scripted → o.Preparing := fun _ h => h.preparing
  have hP := Session.closed_restores (I := Ledger false []) Session.Ledger.deed
  have launched := hP.launching (Session.restores_launchWith Session.restores_makeClone [])
  have advanced := told_advanceStart hA fun _ h => h.preparing
  have looped := told_runLoops (A := Occasion.Preparing) hA fun id b loops =>
    ⟨fun _ waits => (by cases loops.symm.trans waits), trivial⟩
  have touched := told_deliverTouches (A := Occasion.Preparing) hA fun id b target touches =>
    ⟨fun _ waits => (by cases touches.symm.trans waits), trivial⟩
  rw [updateBy]
  refine .ask ?_
  rw [if_pos running]
  have taken : ({ s with inbox := [] } : Session).Ready :=
    ⟨⟨⟨hs.ledger.drains, hs.ledger.busy, hs.ledger.idle⟩, hs.ledger.none⟩,
      ⟨hs.registry.stage, hs.registry.catalogs, hs.registry.locals⟩, hs.catalogued.same rfl rfl⟩
  refine Yields.bind (Q := fun messages t l =>
    messages = s.inbox ∧ t = { s with inbox := [] } ∧ l = [⟨.update, s⟩]) (.seen ⟨rfl, rfl, rfl⟩) ?_
  rintro _ _ _ ⟨rfl, rfl, rfl⟩
  refine Yields.mono (Q := fun _ t l => Q { s with inbox := [] } l t) ?_ fun _ t l h => ⟨l, rfl, h⟩
  refine yields_prepared prepared taken (told_tick _)
    ((Session.trying_restores Session.Ledger.deed).tick _) fun _ u hu => ?_
  refine yields_prepared prepared hu (.skill (Session.skill_stepPhysics _))
    (hP.stepPhysics _) fun _ u hu => ?_
  refine yields_prepared prepared hu (told_countPhase _) (hP.countPhase _) fun _ u hu => ?_
  refine yields_prepared prepared hu advanced Session.restores_advanceStart fun _ u hu => ?_
  refine yields_prepared prepared hu (told_resumeAll hA) Session.restores_resumeAll fun _ u hu => ?_
  refine yields_prepared prepared hu (told_countPhase _) (hP.countPhase _) fun _ u hu => ?_
  refine yields_prepared prepared hu looped (hP.runLoops launched) fun _ u hu => ?_
  refine yields_prepared prepared hu (told_countPhase _) (hP.countPhase _) fun _ u hu => .ask ?_
  -- deliveries come last, whether or not touches have been delivered
  have last : ∀ v : Session, v.Ready → Yields (do
      (liftM (Play.countPhase "touching") : Chronicle Unit)
      if ← Play.ask Session.running then deliverMessages s.inbox
      Play.countPhase "messages") v fun _ w l => Q v l w :=
    fun v hv => yields_prepared prepared hv (told_countPhase _) (hP.countPhase _) fun _ w hw =>
      deliver w hw
  cases u.running with
  | false => exact last u hu
  | true =>
    exact yields_prepared prepared hu touched (hP.noting.deliverTouches launched) fun _ v hv => last v hv

end

theorem inner_deliverMessages (messages : List String) :
    Told Occasion.Inner (deliverMessages messages) (Play.deliverMessages messages) :=
  told_deliverMessages (fun _ h => h.preparing.2) (fun _ h => h.inner) messages

/-- **An update delivers the messages that it has found queued.** -/
theorem yields_updateBy (hs : s.Ready) (running : s.running = true) (dt : Float32) :
    Yields (updateBy dt) s fun _ t l =>
      ∃ rest, l = ⟨.update, s⟩ :: rest ∧ Carriage s.inbox { s with inbox := [] } rest t := by
  refine yields_round Carriage.after hs running dt fun u hu => .ask ?_
  cases going : u.running with
  | false =>
    rw [if_neg (by simp)]
    refine .silent ⟨Trace.start.change (.feat (.stage (u.stage.calm_record _))), fun running => ?_⟩
    rw [show ({ u with stage := u.stage.record "messages" } : Session).running = false from going]
      at running
    cases running
  | true =>
    rw [if_pos rfl]
    refine ((yields_deliverMessages s.inbox hu).and
      (Yields.of_told (inner_deliverMessages s.inbox) (Play.After.any _ u))).bind ?_
    rintro _ v l ⟨brought, -, trace⟩
    refine .silent ⟨?_, fun running => ?_⟩
    · rw [List.append_nil]
      exact trace.change (.feat (.stage (v.stage.calm_record _)))
    · obtain ⟨ds, same, messages, proper⟩ := brought running
      exact ⟨[], ds, by rw [List.append_nil, same]; rfl, fun _ h => (List.not_mem_nil h).elim,
        messages, proper⟩

end Chronicle

/-! ## Calls -/

namespace Call

/-- Does a call update the session? -/
def isUpdate : Call → Bool
  | .script .update => true
  | .script (.updateBy _) => true
  | _ => false

/-- Does a call run scripts? -/
def isScript : Call → Bool
  | .script _ => true
  | _ => false

end Call

namespace Session

variable {s t : Session}

/-- What a call does to messages if the session runs before and after it. -/
structure Carried (s : Session) (c : Call) : Prop where
  /-- First there is nothing that has to do with deliveries.  Then an update delivers what was
      queued when it began, message by message, and reports every delivery with the number of
      behaviors launched; other calls deliver nothing. -/
  brought : ∃ (front : List Moment) (ds : List Delivery),
    (c.watched s).2 = front ++ ds.flatMap Delivery.moments ∧ (∀ k ∈ front, k.occasion.Quiet) ∧
      ds.map Delivery.message = (if c.isUpdate then s.inbox else []) ∧ (∀ d ∈ ds, d.Proper) ∧
      (c.isScript = true →
        (c.run.last s).heard = s.heard ++ ds.map fun d => (d.message, d.handlers))
  /-- An update empties the queue when it begins, and whatever is posted is queued last. -/
  queued : (c.run.last s).inbox
    = (if c.isUpdate then [] else s.inbox) ++ (c.watched s).2.filterMap Moment.posted?

/-- A call in which nothing has to do with deliveries. -/
theorem carried_of_prepared {c : Call} {l : List Moment} (hc : c.isUpdate = false)
    (hl : (c.watched s).2 = ⟨.call c, s⟩ :: l) (trace : Trace Occasion.Preparing s l (c.run.last s))
    (running : (c.run.last s).running = true) : s.Carried c := by
  have mail := trace.mail (fun _ h => h.2) running
  have quiet : ∀ k ∈ l, k.occasion.Quiet := fun k hk => (trace.kind k hk).1
  refine ⟨⟨⟨.call c, s⟩ :: l, [], ?_, fun k hk => ?_, ?_, fun _ h => (List.not_mem_nil h).elim,
    fun _ => ?_⟩, ?_⟩
  · rw [hl]
    exact (List.append_nil _).symm
  · rcases List.mem_cons.mp hk with rfl | inside
    · trivial
    · exact quiet k inside
  · rw [hc]
    rfl
  · rw [mail.heard, (Moment.silent_of_quiet quiet).2]
    rfl
  · rw [hc, hl]
    exact mail.inbox

/-- An update delivers what it has found queued. -/
theorem carried_of_update {c : Call} {l : List Moment} (hc : c.isUpdate = true)
    (hl : (c.watched s).2 = ⟨.call c, s⟩ :: ⟨.update, s⟩ :: l)
    (carriage : Chronicle.Carriage s.inbox { s with inbox := [] } l (c.run.last s))
    (running : (c.run.last s).running = true) : s.Carried c := by
  have mail := carriage.trace.mail (fun _ h => h) running
  obtain ⟨front, ds, rfl, quiet, messages, proper⟩ := carriage.brought running
  refine ⟨⟨⟨.call c, s⟩ :: ⟨.update, s⟩ :: front, ds, hl, fun k hk => ?_, ?_, proper,
    fun _ => ?_⟩, ?_⟩
  · rcases List.mem_cons.mp hk with rfl | inside
    · trivial
    · rcases List.mem_cons.mp inside with rfl | inside
      · trivial
      · exact quiet k inside
  · rw [hc, messages]
    rfl
  · have heard := mail.heard
    rw [List.filterMap_append, (Moment.silent_of_quiet quiet).2, Delivery.delivered proper] at heard
    exact heard
  · rw [hc, hl]
    exact mail.inbox

/-- A call in which no script runs and no message is posted. -/
theorem carried_of_plain {c : Call} (hc : c.Plain) (running : (c.run.last s).running = true) :
    s.Carried c := by
  have inbox := (inbox_plain hc running).2
  have alone : (c.watched s).2 = [⟨.call c, s⟩] ∧ c.isUpdate = false ∧ c.isScript = false := by
    cases c with
    | script c => exact hc.elim
    | broadcast message => exact hc.elim
    | _ => exact ⟨rfl, rfl, rfl⟩
  obtain ⟨seen, noUpdate, noScript⟩ := alone
  refine ⟨⟨[⟨.call c, s⟩], [], seen, fun k hk => ?_, ?_, fun _ h => (List.not_mem_nil h).elim,
    fun h => ?_⟩, ?_⟩
  · obtain rfl := List.mem_singleton.mp hk
    trivial
  · rw [noUpdate]
    rfl
  · rw [noScript] at h
    cases h
  · rw [seen, noUpdate, inbox]
    exact (List.append_nil _).symm

open Chronicle in
/-- Scripts are told of by those calls that update nothing. -/
theorem told_of_not_update {c : ScriptCall} (hc : (Call.script c).isUpdate = false)
    (hs : c ≠ .start) : Told Occasion.Preparing c.watched c.run := by
  have hA : ∀ o : Occasion, o.Scripted → o.Preparing := fun _ h => h.preparing
  cases c with
  | start => exact absurd rfl hs
  | update => cases hc
  | updateBy dt => cases hc
  | keyDown raw =>
    refine (told_keyDown hA (fun id b key presses => ⟨fun _ waits => ?_, trivial⟩) raw).discarded
    cases presses.symm.trans waits
  | pointerDown p =>
    refine (told_pointerDown hA (fun id b clicks => ⟨fun _ waits => ?_, trivial⟩) p).discarded
    cases clicks.symm.trans waits
  | createClone source => exact (told_createClone hA source).discarded

open Chronicle in
/-- **One call**: if it leaves the session running, it carries the mail. -/
theorem carried_of_ready (hs : s.Ready) (running : s.running = true) {c : Call}
    (hc : c.run s = .ok () t) (stays : t.running = true) : s.Carried c := by
  have last : c.run.last s = t := Play.last_of_ok hc
  have watched : (c.watched s).1 = .ok () t := (c.told.same s).trans hc
  rw [← last] at stays watched
  -- a call is seen, and then what happens in it
  have seen : ∀ {c : Call} {p : Chronicle Unit} {u : Session} {Q : Session → List Moment → Prop},
      ((do mark (.call c); p : Chronicle Unit) s).1 = .ok () u → Yields p s (fun _ t l => Q t l) →
      ∃ l, ((do mark (.call c); p : Chronicle Unit) s).2 = ⟨.call c, s⟩ :: l ∧ Q u l := by
    intro c p u Q hu hp
    have yields : Yields (do mark (.call c); p : Chronicle Unit) s fun _ t l =>
        ∃ rest, l = ⟨.call c, s⟩ :: rest ∧ Q t rest := .marked (hp.mono fun _ t l h => ⟨l, rfl, h⟩)
    exact yields () u hu
  have prepared : ∀ {p : Chronicle Unit} {q : Play Unit}, Told Occasion.Preparing p q →
      Yields p s fun _ t l => Trace Occasion.Preparing s l t :=
    fun told => (Yields.of_told told (Play.After.any _ s)).mono fun _ _ _ h => h.2
  cases c with
  | script c =>
    by_cases updates : (Call.script c).isUpdate = true
    · have carries : Yields c.watched s fun _ t l => ∃ rest, l = ⟨.update, s⟩ :: rest ∧
          Carriage s.inbox { s with inbox := [] } rest t := by
        cases c with
        | update => exact .ask (yields_updateBy hs running _)
        | updateBy dt => exact yields_updateBy hs running dt
        | _ => cases updates
      obtain ⟨_, hl, rest, rfl, carriage⟩ := seen watched carries
      exact carried_of_update updates hl carriage stays
    · have updates := Bool.eq_false_iff.mpr updates
      by_cases starts : c = .start
      · subst starts
        -- a session that runs already only notes that
        have ignored : Yields Chronicle.start s fun _ t l => Trace Occasion.Preparing s l t := by
          refine .ask ?_
          rw [if_pos running]
          exact .silent (Trace.start.change (.feat (.beside (s.beside_note _ _))))
        obtain ⟨l, hl, trace⟩ := seen watched ignored
        exact carried_of_prepared updates hl trace stays
      · obtain ⟨l, hl, trace⟩ := seen watched (prepared (told_of_not_update updates starts))
        exact carried_of_prepared updates hl trace stays
  | broadcast message =>
    obtain ⟨l, hl, trace⟩ := seen watched (prepared (told_post (fun _ h => h.preparing) message))
    exact carried_of_prepared rfl hl trace stays
  | _ => exact carried_of_plain trivial stays

/-! ## Runs -/

/-- Does the session run before the first of some calls and after each of them? -/
def runsOn (s : Session) : List Call → Bool
  | [] => s.running
  | c :: rest => s.running && (c.run.last s).runsOn rest

/-- What becomes of messages while calls are made. -/
structure Postal (s : Session) (calls : List Call) : Prop where
  /-- Calls that are watched end as they do, and change the session as they do. -/
  same : ∀ (c : Call) (u : Session), (c.watched u).1 = c.run u
  /-- Every call carries the mail. -/
  each : ∀ before c after, calls = before ++ c :: after → (s.after before).Carried c
  /-- What is delivered in all, and then what is still queued, is what was queued in the beginning,
      and then all that has been posted. -/
  balance : (s.chronicle calls).filterMap Moment.begun? ++ (s.after calls).inbox
    = s.inbox ++ (s.chronicle calls).filterMap Moment.posted?
  /-- What is queued at some time, and what is posted from then on, is delivered in the next
      update. -/
  next : ∀ before between c after, calls = before ++ (between ++ c :: after) →
    (∀ d ∈ between, d.isUpdate = false) → c.isUpdate = true →
    (c.watched (s.after (before ++ between))).2.filterMap Moment.begun?
      = (s.after before).inbox ++ ((s.after before).chronicle between).filterMap Moment.posted?

/-- The deliveries that begin in a call are those of the messages that it finds queued, if it is an
    update. -/
theorem Carried.begun {c : Call} (h : s.Carried c) :
    (c.watched s).2.filterMap Moment.begun? = if c.isUpdate then s.inbox else [] := by
  obtain ⟨front, ds, hl, quiet, messages, proper, -⟩ := h.brought
  rw [hl, List.filterMap_append, (Moment.silent_of_quiet quiet).1, Delivery.begun proper]
  exact messages

/-- Calls that all return and leave the session running. -/
structure Runs (s : Session) (calls : List Call) : Prop where
  reachable : Reachable s
  returns : s.allReturn calls = true
  running : s.runsOn calls = true

namespace Runs

variable {c : Call} {calls rest before : List Call}

/-- The first call carries the mail, and the others run on from there. -/
theorem step (h : s.Runs (c :: rest)) : s.Carried c ∧ (c.run.last s).Runs rest := by
  obtain ⟨running, runs⟩ := Bool.and_eq_true_iff.mp h.running
  obtain ⟨returned, others⟩ := Bool.and_eq_true_iff.mp h.returns
  have ready : s.Ready := ready_of_reachable h.reachable
  rw [Play.returns] at returned
  cases hc : c.run s with
  | error e t =>
    rw [hc] at returned
    cases returned
  | ok a t =>
    have last : c.run.last s = t := Play.last_of_ok hc
    rw [last] at others runs ⊢
    have stays : t.running = true := by
      cases rest with
      | nil => exact runs
      | cons d rest => exact (Bool.and_eq_true_iff.mp runs).1
    exact ⟨carried_of_ready ready running hc stays, h.reachable.call c hc, others, runs⟩

theorem drop (h : s.Runs (before ++ rest)) : (s.after before).Runs rest := by
  induction before generalizing s with
  | nil => exact h
  | cons c before ih => exact ih h.step.2

theorem each (h : s.Runs calls) {after : List Call} (split : calls = before ++ c :: after) :
    (s.after before).Carried c := by
  subst split
  exact h.drop.step.1

/-- What is delivered and what is left is what there was and what has come in. -/
theorem balance (h : s.Runs calls) :
    (s.chronicle calls).filterMap Moment.begun? ++ (s.after calls).inbox
      = s.inbox ++ (s.chronicle calls).filterMap Moment.posted? := by
  induction calls generalizing s with
  | nil => exact (List.append_nil _).symm
  | cons c rest ih =>
    obtain ⟨carried, runs⟩ := h.step
    -- the queue after the first call is what the others start from
    have begun : ((c.watched s).2 ++ (c.run.last s).chronicle rest).filterMap Moment.begun?
        ++ ((c.run.last s).after rest).inbox
        = (if c.isUpdate then s.inbox else []) ++ ((c.run.last s).inbox
          ++ ((c.run.last s).chronicle rest).filterMap Moment.posted?) := by
      rw [List.filterMap_append, List.append_assoc, ih runs, carried.begun]
    refine begun.trans ?_
    show _ = s.inbox ++ ((c.watched s).2 ++ (c.run.last s).chronicle rest).filterMap Moment.posted?
    rw [List.filterMap_append, carried.queued]
    cases c.isUpdate with
    | true => rw [if_pos rfl, if_pos rfl, List.nil_append]
    | false =>
      rw [if_neg Bool.false_ne_true, if_neg Bool.false_ne_true, List.nil_append, List.append_assoc]

/-- Until the next update what is posted is queued. -/
theorem inbox (h : s.Runs (calls ++ rest)) (quiet : ∀ d ∈ calls, d.isUpdate = false) :
    (s.after calls).inbox = s.inbox ++ (s.chronicle calls).filterMap Moment.posted? := by
  induction calls generalizing s with
  | nil => exact (List.append_nil _).symm
  | cons c others ih =>
    obtain ⟨carried, runs⟩ := h.step
    have later := ih runs fun d hd => quiet d (List.mem_cons_of_mem c hd)
    have queued := carried.queued
    rw [quiet c List.mem_cons_self, if_neg Bool.false_ne_true] at queued
    show ((c.run.last s).after others).inbox = s.inbox
      ++ ((c.watched s).2 ++ (c.run.last s).chronicle others).filterMap Moment.posted?
    rw [later, queued, List.filterMap_append, List.append_assoc]

end Runs

/-- **Messages are neither lost, doubled nor reordered**, as long as the session keeps running:
    whoever posts them, and whatever the scripts do that they launch. -/
theorem postal_of_reachable (hs : Reachable s) {calls : List Call}
    (returns : s.allReturn calls = true) (running : s.runsOn calls = true) : s.Postal calls where
  same c := c.told.same
  each before c after split := Runs.each ⟨hs, returns, running⟩ split
  balance := Runs.balance ⟨hs, returns, running⟩
  next before between c after split quiet update := by
    subst split
    have runs : (s.after before).Runs (between ++ c :: after) := Runs.drop ⟨hs, returns, running⟩
    have joined : s.after (before ++ between) = (s.after before).after between :=
      List.foldl_append
    have carried := runs.drop.step.1.begun
    rw [update, if_pos rfl] at carried
    rw [joined, carried]
    exact runs.inbox quiet

/-- Someone passes a message on as another, which it waits for itself. -/
def relaying : Session :=
  (fresh .usual (Generator.ofSeed 0) 5).after
    [.register (Spawn.new "a"),
      .addBehaviors "a" ⟨[⟨0, .message "m", [.action (.broadcast (.const (.text "n")))]⟩,
        ⟨1, .message "n", [.waitUntil (.const (.bool false))]⟩], [], 2⟩,
      .script .start]

/-- The second message is posted while the first is delivered, so it is delivered in the update
    after that; when it is posted again, the behavior that it has launched is still suspended. -/
theorem postal_relaying :
    relaying.Postal [.broadcast "m", .script (.updateBy 0), .script (.updateBy 0), .broadcast "n",
        .script (.updateBy 0)] ∧
      (relaying.after [.broadcast "m", .script (.updateBy 0), .script (.updateBy 0), .broadcast "n",
        .script (.updateBy 0)]).heard = [("m", 1), ("n", 1), ("n", 0)] :=
  ⟨postal_of_reachable ((Reachable.fresh _ _ _).after _ (by decide +kernel)) (by decide +kernel)
    (by decide +kernel), by decide +kernel⟩

end Session

end BlockStage
